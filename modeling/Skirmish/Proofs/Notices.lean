import Skirmish.Proofs.Attention
import Skirmish.Proofs.Changes
/-!
# Notices

Whenever somebody comes or goes, a notice is kept for everyone who has a session, and the
connections relay what has been kept, each in its own time. What a step makes of a connection and of
its notices is listed in `StepEffect`; all that happens to the other connections is that they keep
the news (`Effects`).

None of this depends on the queue. When the simulation has gone nobody is admitted any more, but
those who still go are announced to the others all the same.
-/

namespace Skirmish

/-- What the others are told when somebody comes or goes. -/
def Event.notice? : Event → Option Notice
  | .connected id username => some ⟨id, .playerJoin id username⟩
  | .disconnected id => some ⟨id, .playerLeave id⟩
  | _ => none

namespace Event

theorem marks_of_notice? {e : Event} {notice : Notice} (h : e.notice? = some notice) :
    e.Marks notice.about ∧ notice.message.isNotice = true := by
  cases e with
  | connected id username =>
    obtain rfl := Option.some.inj h
    exact ⟨.inl ⟨username, rfl⟩, rfl⟩
  | disconnected id =>
    obtain rfl := Option.some.inj h
    exact ⟨.inr rfl, rfl⟩
  | udpReady | endpointChanged | input => cases h

/-- Every coming and going has its notice. -/
theorem exists_notice?_of_marks {e : Event} {p : UInt8} (h : e.Marks p) :
    ∃ notice, e.notice? = some notice ∧ notice.about = p := by
  rcases h with ⟨username, rfl⟩ | rfl
  · exact ⟨_, rfl, rfl⟩
  · exact ⟨_, rfl, rfl⟩

/-- A notice says what it is about. -/
theorem message_of_notice? {e : Event} {notice : Notice} (h : e.notice? = some notice) :
    (∃ username, notice.message = .playerJoin notice.about username) ∨
      notice.message = .playerLeave notice.about := by
  cases e with
  | connected id username =>
    obtain rfl := Option.some.inj h
    exact .inl ⟨username, rfl⟩
  | disconnected id =>
    obtain rfl := Option.some.inj h
    exact .inr rfl
  | udpReady | endpointChanged | input => cases h

/-- Inputs are no news. -/
theorem filterMap_notice?_filter (events : List Event) :
    (events.filter fun e => !e.isInput).filterMap notice? = events.filterMap notice? := by
  rw [List.filterMap_filter]
  refine List.filterMap_congr fun e _ => ?_
  cases e <;> rfl

end Event

/-- The news when one table becomes another. -/
def SessionTable.newsTo (t t' : SessionTable) : List Notice :=
  (t.changesTo t').filterMap Event.notice?

/-! ## Keeping notices -/

namespace Connection

/-- Keeps several notices, one after the other. -/
def keep (c : Connection) (news : List Notice) : Connection := news.foldl post c

variable {c : Connection}

theorem keep_of_not_isSubscribed (h : c.isSubscribed = false) (news : List Notice) :
    c.keep news = c := by
  induction news with
  | nil => rfl
  | cons notice rest ih =>
    have hpost : c.post notice = c := by
      rw [post, h]
      rfl
    rw [keep, List.foldl_cons, hpost]
    exact ih

/-- Nothing is lost as long as there is room. -/
theorem keep_of_room (h : c.isSubscribed = true) {news : List Notice}
    (hroom : c.inbox.length + news.length ≤ inboxLimit) :
    c.keep news = { c with inbox := c.inbox ++ news } := by
  -- on the news, since they are kept one by one, and the room shrinks with each
  induction news generalizing c with
  | nil =>
    rw [List.append_nil]
    rfl
  | cons notice rest ih =>
    rw [List.length_cons] at hroom
    have hpost : c.post notice = { c with inbox := c.inbox ++ [notice] } := by
      have hfits : (c.inbox ++ [notice]).length - inboxLimit = 0 := by
        rw [List.length_append, List.length_singleton]
        omega
      rw [post, if_pos h]
      dsimp only
      rw [hfits, List.drop_zero]
    have hroom' : (c.post notice).inbox.length + rest.length ≤ inboxLimit := by
      rw [hpost]
      show (c.inbox ++ [notice]).length + rest.length ≤ inboxLimit
      rw [List.length_append, List.length_singleton]
      omega
    have hsub : (c.post notice).isSubscribed = true := by
      rw [hpost]
      exact h
    rw [keep, List.foldl_cons, ← keep, ih hsub hroom', hpost]
    simp only [List.append_assoc, List.singleton_append]

theorem aside_keep (c : Connection) (news : List Notice) : (c.keep news).aside = c.aside := by
  induction news generalizing c with
  | nil => rfl
  | cons notice rest ih => exact (ih (c.post notice)).trans (c.aside_post notice)

theorem phase_keep (c : Connection) (news : List Notice) : (c.keep news).phase = c.phase := by
  show (c.keep news).aside.phase = c.aside.phase
  rw [aside_keep]

theorem sent_keep (c : Connection) (news : List Notice) : (c.keep news).sent = c.sent := by
  show (c.keep news).aside.sent = c.aside.sent
  rw [aside_keep]

theorem session?_keep (c : Connection) (news : List Notice) :
    (c.keep news).session? = c.session? := by
  rw [session?, phase_keep, session?]

end Connection

theorem Connections.get?_foldl_post (news : List Notice) (cs : Connections) (k : Nat) :
    (news.foldl Connections.post cs).get? k = (cs.get? k).map fun c => c.keep news := by
  induction news generalizing cs with
  | nil =>
    show cs.get? k = (cs.get? k).map id
    rw [Option.map_id_fun, id]
  | cons notice rest ih =>
    rw [List.foldl_cons, ih, Connections.post, SortedMap.get?_map, Option.map_map]
    rfl

namespace Gateway

variable {g g' : Gateway} {n : Nat} {c c' : Connection} {a : Action} {told : List Event}
  {sessions : SessionTable}

/-! ## What a step makes of a connection -/

/-- What a step of its own makes of a connection and of the notices that it keeps, what there is to
tell of it, and what becomes of the sessions. -/
inductive StepEffect (g : Gateway) (n : Nat) (c : Connection) :
    Action → Connection → List Event → SessionTable → Prop
  /-- From now on notices are kept. -/
  | admitted {username version : String} {s : Session} {sessions : SessionTable} {r : Generator}
      (phase : c.phase = .greeting)
      (join : g.sessions.join Generator.patience username g.generator = .ok (s, sessions, r)) :
      StepEffect g n c (.hear n (.connect username version))
        { c with phase := .welcoming s, inbox := [] } [.connected s.playerId s.username] sessions
  | greeted {a : Action} {s : Session} (phase : c.phase = .welcoming s) :
      StepEffect g n c a (c.write (.connectOk s.playerId s.token g.udpPort) (.serving s) (.leaving s))
        []
        g.sessions
  | skipped {a : Action} {s : Session} {notice : Notice} {rest : List Notice}
      (phase : c.phase = .serving s) (oldest : c.inbox = notice :: rest)
      (own : notice.about = s.playerId) : StepEffect g n c a { c with inbox := rest } [] g.sessions
  | relayed {a : Action} {s : Session} {notice : Notice} {rest : List Notice}
      (phase : c.phase = .serving s) (oldest : c.inbox = notice :: rest)
      (other : notice.about ≠ s.playerId) :
      StepEffect g n c a ({ c with inbox := rest }.write notice.message (.serving s) (.leaving s)) []
        g.sessions
  /-- A player is answered and goes on, if writing does not fail. -/
  | answered {a : Action} {m : Control.Message} {failed : Phase} (answer : m.isNotice = false)
      (isOver : { c with phase := failed }.IsOver)
      (session : { c with phase := failed }.session? = c.session?) :
      StepEffect g n c a (c.write m c.phase failed) [] g.sessions
  | passed {a : Action} {isWritable : Bool} : StepEffect g n c a { c with isWritable } [] g.sessions
  | ended {a : Action} {c' : Connection} (isOver : c'.IsOver) (session : c'.session? = c.session?) :
      StepEffect g n c a c' [] g.sessions
  /-- The session of a connection ends. -/
  | departed {s : Session} (phase : c.phase = .leaving s) :
      StepEffect g n c (.depart n) { c with phase := .ended } [.disconnected s.playerId]
        (g.sessions.close s.token)

/-- What becomes of the gateway when this becomes of a connection: everyone who has a session keeps
the news. -/
structure Moves (g : Gateway) (n : Nat) (c' : Connection) (told : List Event)
    (sessions : SessionTable) (g' : Gateway) : Prop where
  connections : g'.connections =
    (told.filterMap Event.notice?).foldl Connections.post (g.connections.insert n c')
  sessions : g'.sessions = sessions
  udpPort : g'.udpPort = g.udpPort

/-- A step of a connection as one of the list. -/
def Acts (g : Gateway) (n : Nat) (c : Connection) (a : Action) (g' : Gateway) : Prop :=
  ∃ c' told sessions, g.StepEffect n c a c' told sessions ∧ g.Moves n c' told sessions g'

/-- A connection changes and there is no news. -/
theorem moves_setConnection (g : Gateway) (n : Nat) (c' : Connection) :
    g.Moves n c' [] g.sessions (g.setConnection n c') :=
  ⟨rfl, rfl, rfl⟩

/-- Nothing becomes of the gateway. -/
theorem moves_self (hc : g.connections.get? n = some c) : g.Moves n c [] g.sessions g := by
  refine ⟨SortedMap.ext_get? fun k => ?_, rfl, rfl⟩
  show g.connections.get? k = (g.connections.insert n c).get? k
  rw [SortedMap.get?_insert]
  split
  · rename_i hk
    rw [← hk, hc]
  · rfl

/-- A connection writes a last time, and whether or not that fails it is over. -/
theorem ended_write {m : Control.Message} {next : Phase}
    (hover : ∀ c : Connection, { c with phase := next }.IsOver)
    (hsession : ∀ c' : Connection, { c' with phase := next }.session? = c.session?) :
    g.StepEffect n c a (c.write m next next) [] g.sessions :=
  .ended
    (Connection.write_elim Connection.IsOver (hover { c with sent := c.sent ++ [m] }) (hover c))
    (Connection.write_elim (fun c' => c'.session? = c.session?)
      (hsession { c with sent := c.sent ++ [m] }) (hsession c))

theorem isOver_ended (c : Connection) : { c with phase := .ended }.IsOver := .inl rfl

theorem isOver_leaving (s : Session) (c : Connection) : { c with phase := .leaving s }.IsOver :=
  .inr ⟨s, rfl⟩

theorem session?_of_greeting (h : c.phase = .greeting) : c.session? = none := by
  rw [Connection.session?, h]

theorem session?_of_serving {s : Session} (h : c.phase = .serving s) : c.session? = some s := by
  rw [Connection.session?, h]

theorem acts_of_requestAdmission {username version : String} (hp : c.phase = .greeting)
    (h : g.requestAdmission n c username = some g') :
    g.Acts n c (.hear n (.connect username version)) g' := by
  unfold requestAdmission at h
  split at h
  · obtain rfl := Option.some.inj h
    refine ⟨_, _, _, ?_, moves_setConnection g n _⟩
    rw [← hp]
    exact .answered rfl (isOver_ended c) (session?_of_greeting hp).symm
  · cases h
  · rename_i s sessions r hjoin
    split at h
    · obtain ⟨queue, -, rfl⟩ := Option.map_eq_some_iff.mp h
      exact ⟨_, _, _, .admitted hp hjoin, rfl, rfl, rfl⟩
    · obtain rfl := Option.some.inj h
      exact ⟨_, _, _, .ended (isOver_ended c) (session?_of_greeting hp).symm, rfl, rfl, rfl⟩

theorem acts_of_hear {m : Control.Message} (hc : g.connections.get? n = some c)
    (h : g.hear? n c m = some g') : g.Acts n c (.hear n m) g' := by
  -- every line is answered, admitted or ignored, by the phase it is heard in
  unfold hear? at h
  split at h
  · rename_i username version hp
    exact acts_of_requestAdmission hp h
  · rename_i hp
    obtain rfl := Option.some.inj h
    exact ⟨_, _, _, ended_write isOver_ended fun _ => (session?_of_greeting hp).symm,
      moves_setConnection g n _⟩
  · obtain rfl := Option.some.inj h
    exact ⟨_, _, _, .passed, moves_self hc⟩
  · rename_i s _ _ hp
    obtain rfl := Option.some.inj h
    refine ⟨_, _, _, ?_, moves_setConnection g n _⟩
    rw [← hp]
    exact .answered rfl (isOver_leaving s c) (session?_of_serving hp).symm
  · rename_i s hp
    obtain rfl := Option.some.inj h
    exact ⟨_, _, _, ended_write (isOver_leaving s) fun _ => (session?_of_serving hp).symm,
      moves_setConnection g n _⟩
  · obtain rfl := Option.some.inj h
    exact ⟨_, _, _, .passed, moves_self hc⟩
  · cases h

theorem acts_of_hangUp (h : g.hangUp? n c = some g') : g.Acts n c (.hangUp n) g' := by
  unfold hangUp? at h
  split at h
  · rename_i hp
    obtain rfl := Option.some.inj h
    exact ⟨_, _, _, .ended (isOver_ended c) (session?_of_greeting hp).symm,
      moves_setConnection g n _⟩
  · rename_i s hp
    obtain rfl := Option.some.inj h
    exact ⟨_, _, _, .ended (isOver_leaving s c) (session?_of_serving hp).symm,
      moves_setConnection g n _⟩
  · cases h

theorem acts_of_greet (h : g.greet? n c = some g') : g.Acts n c (.greet n) g' := by
  unfold greet? at h
  split at h
  · rename_i s hp
    obtain rfl := Option.some.inj h
    exact ⟨_, _, _, .greeted hp, moves_setConnection g n _⟩
  · cases h

theorem acts_of_relay (h : g.relay? n c = some g') : g.Acts n c (.relay n) g' := by
  unfold relay? at h
  split at h
  · rename_i s notice rest hp hinbox
    dsimp only at h
    split at h
    · rename_i hown
      obtain rfl := Option.some.inj h
      exact ⟨_, _, _, .skipped hp hinbox hown, moves_setConnection g n _⟩
    · rename_i hother
      obtain rfl := Option.some.inj h
      exact ⟨_, _, _, .relayed hp hinbox hother, moves_setConnection g n _⟩
  · cases h

theorem acts_of_depart (hheld : ∀ s, c.phase = .leaving s → (g.sessions.get? s.token).isSome)
    (h : g.depart? n c = some g') : g.Acts n c (.depart n) g' := by
  unfold depart? at h
  split at h
  · rename_i s hp
    obtain ⟨s₀, hs₀⟩ := Option.isSome_iff_exists.mp (hheld s hp)
    -- the session is in the table, so its end is not old news
    have hs₁ : (g.setConnection n { c with phase := .ended }).sessions.get? s.token = some s₀ := hs₀
    simp only [hs₁] at h
    obtain ⟨queue, -, rfl⟩ := Option.map_eq_some_iff.mp h
    exact ⟨_, _, _, .departed hp, rfl, rfl, rfl⟩
  · cases h

/-- **Every step of a connection is on the list**, if a session does not end behind the back of the
connection that holds it. -/
theorem acts_of_step? (hn : a.connection? = some n) (hc : g.connections.get? n = some c)
    (hheld : ∀ s, c.phase = .leaving s → (g.sessions.get? s.token).isSome)
    (h : g.step? a = some g') : g.Acts n c a g' := by
  have hstep : ∀ {f : Connection → Option Gateway}, g.onConnection n f = some g' →
      f c = some g' := fun hf => (onConnection_of_get? hc).symm.trans hf
  -- the actions of a connection, each by the effect of its own
  cases a with
  | accept k =>
    obtain rfl := Option.some.inj hn
    rw [step?_accept_of_get? hc] at h
    cases h
  | hear k m =>
    obtain rfl := Option.some.inj hn
    exact acts_of_hear hc (hstep h)
  | hangUp k =>
    obtain rfl := Option.some.inj hn
    exact acts_of_hangUp (hstep h)
  | breakOff k =>
    obtain rfl := Option.some.inj hn
    obtain rfl := Option.some.inj (hstep h)
    exact ⟨_, _, _, .passed, moves_setConnection g _ _⟩
  | greet k =>
    obtain rfl := Option.some.inj hn
    exact acts_of_greet (hstep h)
  | relay k =>
    obtain rfl := Option.some.inj hn
    exact acts_of_relay (hstep h)
  | depart k =>
    obtain rfl := Option.some.inj hn
    exact acts_of_depart hheld (hstep h)
  | receive | handOver | shutDown => cases hn

/-! ## What a step makes of the sessions -/

theorem Moves.get? (hm : g.Moves n c' told sessions g') (k : Nat) : g'.connections.get? k =
    (if n = k then some c' else g.connections.get? k).map
      fun c => c.keep (told.filterMap Event.notice?) := by
  rw [hm.connections, Connections.get?_foldl_post, SortedMap.get?_insert]

theorem Moves.holder? (hm : g.Moves n c' told sessions g') (k : Nat) :
    g'.holder? k = if n = k then c'.session? else g.holder? k := by
  rw [Gateway.holder?, hm.get?, Gateway.holder?]
  split
  · exact c'.session?_keep _
  · cases g.connections.get? k with
    | none => rfl
    | some c => exact c.session?_keep _

/-- A connection changes, but not the session that it holds. -/
theorem Moves.still (hm : g.Moves n c' [] g.sessions g') (hc : g.connections.get? n = some c)
    (hs : c'.session? = c.session?) : g.Change a [] g' := by
  refine .still hm.sessions fun k => ?_
  rw [hm.holder?]
  split
  · rename_i hk
    rw [← hk, holder?_of_get? hc, hs]
  · rfl

theorem StepEffect.change (hstepEffect : g.StepEffect n c a c' told sessions)
    (hm : g.Moves n c' told sessions g') (hc : g.connections.get? n = some c) :
    g.Change a told g' := by
  -- only admission and departure change who has a session
  cases hstepEffect with
  | admitted _ hjoin =>
    obtain ⟨hadmission, htable⟩ := SessionTable.join_ok hjoin
    refine .opened hadmission.fresh (fun _ _ => hadmission.free) hadmission.endpoint ?_ hm.holder?
    rw [hm.sessions, htable]
  | @greeted _ s phase =>
    have hs : c.session? = some s := by
      rw [Connection.session?, phase]
    exact hm.still hc (Connection.session?_write _ hs rfl rfl)
  | skipped => exact hm.still hc rfl
  | relayed phase _ _ =>
    exact hm.still hc (Connection.session?_write (c := { c with inbox := _ }) _
      (session?_of_serving phase) rfl rfl)
  | answered _ _ session => exact hm.still hc (Connection.session?_write _ rfl rfl session)
  | passed => exact hm.still hc rfl
  | ended _ session => exact hm.still hc session
  | departed phase =>
    refine .closed ?_ hm.sessions hm.holder?
    rw [holder?_of_get? hc, Connection.session?, phase]

/-- A datagram under a token touches the session, and any other does nothing to the sessions. -/
theorem change_of_receive? {source : Endpoint} {datagram : List UInt8}
    (h : g.receive? source datagram = some g') :
    ∃ told, g.Change (.receive source datagram) told g' := by
  unfold receive? authenticate? at h
  split at h
  · obtain rfl := Option.some.inj h
    exact ⟨[], .still rfl fun _ => rfl⟩
  · rename_i header body hvalid
    split at h
    · obtain rfl := Option.some.inj h
      exact ⟨[], .still rfl fun _ => rfl⟩
    · rename_i id update sessions htouch
      obtain ⟨queue, -, hserve⟩ := Option.map_eq_some_iff.mp h
      obtain ⟨s, hs, heq⟩ := Option.map_eq_some_iff.mp htouch
      obtain ⟨⟨rfl, rfl⟩, rfl⟩ := And.imp_left Prod.mk.inj (Prod.mk.inj heq)
      obtain ⟨inputs, -, -, hchange⟩ := g.change_of_serve hserve hvalid hs rfl rfl
      exact ⟨_, hchange⟩

/-- There is only news of what a connection does. -/
theorem Change.silent (hc : g.Change a told g') (hn : a.connection? = none) :
    told.filterMap Event.notice? = [] := by
  cases hc with
  | still _ _ => rfl
  | opened | closed => cases hn
  | touched _ _ _ _ inputs_only =>
    rw [List.filterMap_eq_nil_iff]
    intro e he
    cases hnotice : e.notice? with
    | none => rfl
    | some notice =>
      exact absurd (Event.marks_of_notice? hnotice).1 (not_marks_of_touched inputs_only e he)

/-! ## All steps -/

/-- What a step makes of the sessions and of the connections. -/
structure Effects (g : Gateway) (a : Action) (told : List Event) (g' : Gateway) : Prop where
  change : g.Change a told g'
  udpPort : g'.udpPort = g.udpPort
  /-- A connection that does not take the step keeps the news. -/
  others : ∀ {n}, a.connection? ≠ some n → g'.connections.get? n =
    (g.connections.get? n).map fun c => c.keep (g.sessions.newsTo g'.sessions)
  /-- A connection that takes the step does so and keeps the news. -/
  own : ∀ {n c}, a.connection? = some n → g.connections.get? n = some c →
    ∃ c' sessions, g.StepEffect n c a c' told sessions ∧
      g'.connections.get? n = some (c'.keep (g.sessions.newsTo g'.sessions))

theorem Tidy.newsTo_eq (hg : g.Tidy) (hc : g.Change a told g') :
    g.sessions.newsTo g'.sessions = told.filterMap Event.notice? := by
  rw [SessionTable.newsTo, ← hg.changesTo_of_change hc, Event.filterMap_notice?_filter]

/-- A step that no connection takes. -/
theorem Tidy.effects_of_apart (hg : g.Tidy) (hn : a.connection? = none) (h : g.step? a = some g')
    (hc : g.Change a told g') : g.Effects a told g' := by
  obtain ⟨hconn, hport⟩ := apart_of_step? hn h
  refine ⟨hc, hport, fun _ => ?_, fun hk => ?_⟩
  · rw [hg.newsTo_eq hc, hc.silent hn, hconn]
    exact (congrFun Option.map_id_fun _).symm
  · rw [hn] at hk
    cases hk

/-- Every step of a connection is on the list, if the sessions are in order. -/
theorem Tidy.acts (hg : g.Tidy) (hn : a.connection? = some n)
    (hc : g.connections.get? n = some c) (h : g.step? a = some g') : g.Acts n c a g' := by
  refine acts_of_step? hn hc (fun s hp => ?_) h
  obtain ⟨s', hs', -⟩ := hg.held (n := n) (s := s) (by
    rw [holder?_of_get? hc, Connection.session?, hp])
  rw [hs']
  rfl

/-- **Every step has its effects**, whether or not the simulation is still there. -/
theorem Tidy.effects (hg : g.Tidy) (h : g.step? a = some g') : ∃ told, g.Effects a told g' := by
  cases hn : a.connection? with
  | none =>
    have hchange : ∃ told, g.Change a told g' := by
      -- nobody hears a line here, so the table changes by a datagram alone
      cases a with
      | receive source datagram => exact change_of_receive? h
      | handOver =>
        obtain ⟨⟨e, queue⟩, -, rfl⟩ := Option.map_eq_some_iff.mp h
        exact ⟨[], .still rfl fun _ => rfl⟩
      | shutDown =>
        obtain rfl := Option.some.inj h
        exact ⟨[], .still rfl fun _ => rfl⟩
      | accept | hear | hangUp | breakOff | greet | relay | depart => cases hn
    obtain ⟨told, hc⟩ := hchange
    exact ⟨told, hg.effects_of_apart hn h hc⟩
  | some n =>
    cases hc : g.connections.get? n with
    | none =>
      obtain ⟨rfl, rfl⟩ := accept_of_step? hn hc h
      have hchange : g.Change (.accept n) [] (g.setConnection n .fresh) :=
        .still rfl (holder?_accept hc)
      -- the others hear of nothing, since nobody has come or gone
      refine ⟨[], hchange, rfl, fun {k} hk => ?_, fun {k c} hk hk' => ?_⟩
      · have hne : ¬ n = k := fun heq => hk (hn.trans (congrArg some heq))
        rw [hg.newsTo_eq hchange, (moves_setConnection g n .fresh).get?, if_neg hne]
      · obtain rfl := Option.some.inj (hn.symm.trans hk)
        rw [hc] at hk'
        cases hk'
    | some c =>
      obtain ⟨c', told, sessions, hstepEffect, hm⟩ := hg.acts hn hc h
      have hchange := hstepEffect.change hm hc
      -- each of the others gets the news of the change, and the connection itself its own part
      -- first
      refine ⟨told, hchange, hm.udpPort, fun {k} hk => ?_, fun {k c₁} hk hk' => ?_⟩
      · have hne : ¬ n = k := fun heq => hk (hn.trans (congrArg some heq))
        rw [hg.newsTo_eq hchange, hm.get?, if_neg hne]
      · obtain rfl := Option.some.inj (hn.symm.trans hk)
        rw [hc, Option.some.injEq] at hk'
        subst hk'
        refine ⟨c', sessions, hstepEffect, ?_⟩
        rw [hg.newsTo_eq hchange, hm.get?, if_pos rfl, Option.map_some]

theorem Tidy.step (hg : g.Tidy) (h : g.step? a = some g') : g'.Tidy := by
  obtain ⟨told, he⟩ := hg.effects h
  exact hg.change he.change

end Gateway

end Skirmish

import Skirmish.Proofs.Conversation
/-!
# Every session has its connection

A session is held by one connection at all times (`Follows.held_once`), and when no line is half handled
the sessions are those that have been announced to their players (`Follows.matched`). Nothing is left
over: however a connection ends, its session can end as soon as there is room for the news.

The invariant is `Follows`. Each connection stands where its course has brought it, and the courses of
all connections together make up the run. `run_attentive` says what every run is like.
-/

namespace Skirmish.Gateway

variable {g g' : Gateway} {n : Nat} {c c' : Connection} {a : Action} {port : UInt16}

/-! ## The sessions and who holds them -/

/-- Sessions are where their tokens say, and each is held by some connection. -/
structure SessionsHeld (g : Gateway) : Prop where
  keyed : ∀ {t s}, g.sessions.get? t = some s → s.token = t
  sessionsHeld : ∀ {t s}, g.sessions.get? t = some s → ∃ n s', g.holder? n = some s' ∧ s'.token = t

theorem sessionsHeld_start (maxPlayers : UInt8) (capacity : Nat) (udpPort : UInt16) (r : Generator) :
    (start maxPlayers capacity udpPort r).SessionsHeld := by
  constructor
  · intro t s h
    cases h
  · intro t s h
    cases h

/-- No session is left without a connection, as long as nobody is admitted who has one. -/
theorem SessionsHeld.change {told : List Event} (hs : g.SessionsHeld) (hc : g.Change a told g')
    (hfree : ∀ n username version, a = .hear n (.connect username version) → told ≠ [] →
      g.holder? n = none) : g'.SessionsHeld := by
  cases hc with
  | still sessions holder =>
    constructor
    · intro t s h
      rw [sessions] at h
      exact hs.keyed h
    · intro t s h
      rw [sessions] at h
      obtain ⟨n, s', hn, ht⟩ := hs.sessionsHeld h
      exact ⟨n, s', by rw [holder, hn], ht⟩
  | @opened n username version new _ fresh _ _ sessions holder =>
    -- whoever is admitted had no session, and is one more connection with one
    have hnone := hfree n username version rfl (by simp)
    have hget := get?_opened sessions
    constructor
    · intro t s h
      rw [hget] at h
      split at h
      · rename_i ht
        obtain rfl := Option.some.inj h
        exact ht
      · exact hs.keyed h
    · intro t s h
      rw [hget] at h
      split at h
      · rename_i ht
        exact ⟨n, new, by rw [holder, if_pos rfl], ht⟩
      · obtain ⟨k, s', hk, ht⟩ := hs.sessionsHeld h
        -- whoever holds an older session is not the newcomer
        have hne : n ≠ k := by
          rintro rfl
          rw [hnone] at hk
          cases hk
        exact ⟨k, s', by rw [holder, if_neg hne, hk], ht⟩
  | @closed n old _ held sessions holder =>
    -- a connection gives up its session and no other one, since tokens tell them apart
    have hget := get?_closed sessions
    constructor
    · intro t s h
      rw [hget] at h
      split at h
      · cases h
      · exact hs.keyed h
    · intro t s h
      rw [hget] at h
      split at h
      · cases h
      · rename_i hold
        obtain ⟨k, s', hk, ht⟩ := hs.sessionsHeld h
        have hne : n ≠ k := by
          rintro rfl
          rw [held, Option.some.injEq] at hk
          subst hk
          exact hold ht
        exact ⟨k, s', by rw [holder, if_neg hne, hk], ht⟩
  | touched _ _ sessions holder _ =>
    have hget := get?_touched sessions
    -- a session afterwards was one before, with the same token
    have hback : ∀ {t s}, g'.sessions.get? t = some s →
        ∃ s₀, g.sessions.get? t = some s₀ ∧ s₀.token = s.token := by
      intro t s h
      rw [hget] at h
      split at h
      · obtain ⟨s₀, h₀, rfl⟩ := Option.map_eq_some_iff.mp h
        exact ⟨s₀, h₀, rfl⟩
      · exact ⟨s, h, rfl⟩
    constructor
    · intro t s h
      obtain ⟨s₀, h₀, htoken⟩ := hback h
      rw [← htoken]
      exact hs.keyed h₀
    · intro t s h
      obtain ⟨s₀, h₀, -⟩ := hback h
      obtain ⟨n, s', hn, ht⟩ := hs.sessionsHeld h₀
      exact ⟨n, s', by rw [holder, hn], ht⟩

/-- The list is complete for an orderly gateway. -/
theorem Orderly.turn (hg : g.Orderly) (hn : a.connection? = some n)
    (hc : g.connections.get? n = some c) (h : g.step? a = some g') : g.Turns n c.aside a g' := by
  refine turn_of_step? hg.isOpen hn hc (fun s hp => ?_) h
  have hholder : g.holder? n = some s := by
    rw [holder?_of_get? hc, Connection.session?, hp]
  obtain ⟨s', hs', -⟩ := hg.held hholder
  rw [hs']
  rfl

/-- Nobody is admitted who has a session. -/
theorem Orderly.holder?_of_admitted (hg : g.Orderly) {username version : String}
    (h : g.step? (.hear n (.connect username version)) = some g')
    (htold : g.told (.hear n (.connect username version)) ≠ []) : g.holder? n = none := by
  obtain ⟨c, hc, -⟩ := Option.bind_eq_some_iff.mp h
  obtain ⟨c', added, sessions, ht, hb⟩ := hg.turn rfl hc h
  rw [told_of_queue h (by simp) hb.events] at htold
  rw [holder?_of_get? hc]
  cases ht with
  | admitted hp _ =>
    show c.aside.session? = none
    rw [Connection.session?, hp]
  | refused | again | passed => exact absurd rfl htold

/-! ## What is kept along the way -/

/-- Every connection stands where its course has brought it, and the sessions are in order. -/
structure Follows (port : UInt16) (courses : Nat → List (Gateway × Action)) (g : Gateway) : Prop where
  orderly : g.Orderly
  sessionsHeld : g.SessionsHeld
  udpPort : g.udpPort = port
  news : ∀ n, g.KeepsNews n
  stands : ∀ {n c}, g.talk? n = some c → Stands port n (courses n) c
  /-- Nothing has been done on a connection that is not there. -/
  unknown : ∀ {n}, g.talk? n = none → courses n = []

theorem follows_start (maxPlayers : UInt8) (capacity : Nat) (udpPort : UInt16) (r : Generator) :
    (start maxPlayers capacity udpPort r).Follows udpPort fun _ => [] := by
  refine ⟨orderly_start _ _ _ _, sessionsHeld_start _ _ _ _, rfl, fun n c h => ?_, fun h => ?_,
    fun _ => rfl⟩
  · cases h
  · cases h

theorem KeepsNews.of_recalls (h : ∀ n, g.KeepsNews n) (hr : g.Recalls g') (n : Nat) : g'.KeepsNews n := by
  intro c' hc' notice hmem
  rcases hr hc' notice hmem with ⟨c, hc, hold⟩ | hnew
  · exact h n hc notice hold
  · exact hnew

/-- A step that no connection takes leaves all of them alone. -/
theorem apart_of_step? (hn : a.connection? = none) (h : g.step? a = some g') :
    g'.connections = g.connections ∧ g'.udpPort = g.udpPort := by
  cases a with
  | receive source datagram => exact connections_of_receive? h
  | handOver =>
    obtain ⟨⟨e, queue⟩, -, rfl⟩ := Option.map_eq_some_iff.mp h
    exact ⟨rfl, rfl⟩
  | shutDown =>
    obtain rfl := Option.some.inj h
    exact ⟨rfl, rfl⟩
  | accept | hear | hangUp | breakOff | greet | relay | depart => cases hn

variable {courses : Nat → List (Gateway × Action)}

/-- One connection changes, by a step of its own. -/
theorem Follows.of_talk (hf : g.Follows port courses) (horderly : g'.Orderly)
    (hsessionsHeld : g'.SessionsHeld) (hport : g'.udpPort = g.udpPort) (hr : g.Recalls g')
    (htalk : ∀ k, g'.talk? k = if n = k then some c' else g.talk? k)
    (hs : Stands port n (courses n ++ [(g, a)]) c') :
    g'.Follows port fun k => courses k ++ if some n = some k then [(g, a)] else [] := by
  refine ⟨horderly, hsessionsHeld, hport.trans hf.udpPort, KeepsNews.of_recalls hf.news hr, ?stands,
    ?unknown⟩
  case stands =>
    intro k c₁ hc₁
    -- the course of the one that acts is one step longer, and those of the others are as they were
    rw [htalk] at hc₁
    by_cases hk : n = k
    · subst hk
      rw [if_pos rfl, Option.some.injEq] at hc₁
      rw [if_pos rfl, ← hc₁]
      exact hs
    · rw [if_neg hk] at hc₁
      rw [if_neg fun heq => hk (Option.some.inj heq), List.append_nil]
      exact hf.stands hc₁
  case unknown =>
    intro k hnone
    rw [htalk] at hnone
    by_cases hk : n = k
    · rw [if_pos hk] at hnone
      cases hnone
    · rw [if_neg hk] at hnone
      rw [if_neg fun heq => hk (Option.some.inj heq), List.append_nil]
      exact hf.unknown hnone

/-- **Every step brings each connection to where its course then ends.** -/
theorem Follows.step (hf : g.Follows port courses) (ha : a ≠ .shutDown)
    (h : g.step? a = some g') :
    g'.Follows port fun k => courses k ++ if a.connection? = some k then [(g, a)] else [] := by
  have horderly := hf.orderly.step ha h
  have hsessionsHeld := hf.sessionsHeld.change (hf.orderly.advances ha h).change
    fun n username version heq htold => by
      subst heq
      exact hf.orderly.holder?_of_admitted h htold
  -- a step of no connection leaves them all as they are, and a step of one only changes that one
  cases hn : a.connection? with
  | none =>
    obtain ⟨hconn, hport⟩ := apart_of_step? hn h
    have htalk : ∀ k, g'.talk? k = g.talk? k := fun k => by rw [talk?, hconn, talk?]
    refine ⟨horderly, hsessionsHeld, hport.trans hf.udpPort,
      KeepsNews.of_recalls hf.news (recalls_of_connections hconn), ?stands, ?unknown⟩
    case stands =>
      intro k c hc
      rw [htalk] at hc
      rw [if_neg (by simp), List.append_nil]
      exact hf.stands hc
    case unknown =>
      intro k hk
      rw [htalk] at hk
      rw [if_neg (by simp), List.append_nil]
      exact hf.unknown hk
  | some n =>
    cases hc : g.connections.get? n with
    | none =>
      -- nobody has had this number, so the course begins here
      obtain ⟨rfl, rfl⟩ := accept_of_step? hn hc h
      have htold : g.told (.accept n) = [] :=
        told_of_queue h (by simp) (List.append_nil g.queue.events).symm
      have hnone : courses n = [] := hf.unknown (by rw [talk?, hc, Option.map_none])
      refine hf.of_talk horderly hsessionsHeld rfl (recalls_setConnection (by simp [Connection.fresh]))
        (talk?_setConnection g n .fresh) ?_
      rw [hnone]
      exact stands_fresh rfl rfl htold
    | some c =>
      -- whatever the step is, it is one turn of the connection
      obtain ⟨c', added, sessions, ht, hb⟩ := hf.orderly.turn hn hc h
      have htalk := talk?_of_get? hc
      have hholder : g.holder? n = c.aside.session? := by
        rw [holder?_of_get? hc]
        rfl
      have htold : g.told a = added := by
        refine told_of_queue h ?_ hb.events
        rintro rfl
        cases hn
      exact hf.of_talk horderly hsessionsHeld hb.udpPort hb.recalls hb.talk
        ((hf.stands htalk).turn ht hf.udpPort hholder (hf.news n) htold)

theorem Follows.run {actions : List Action} (hf : g.Follows port courses)
    (hopen : .shutDown ∉ actions) (h : g.run? actions = some g') :
    g'.Follows port fun k => courses k ++ g.course k actions := by
  induction actions generalizing g courses with
  | nil =>
    obtain rfl := Option.some.inj h
    simpa only [course, List.append_nil] using hf
  | cons a rest ih =>
    obtain ⟨g₁, ha, hrest⟩ := run?_cons h
    rw [List.mem_cons, not_or] at hopen
    have hrun := ih (hf.step (Ne.symm hopen.1) ha) hopen.2 hrest
    simpa only [course_cons ha, List.append_assoc] using hrun

/-! ## Sessions and connections -/

/-- No line is half handled. -/
def Idle (g : Gateway) : Prop :=
  ∀ {n c s}, g.connections.get? n = some c → c.phase ≠ .welcoming s ∧ c.phase ≠ .leaving s

/-- A connection that has not ended has been answered that there is a session. -/
def Welcomed (g : Gateway) (n : Nat) (p : UInt8) (token : UInt32) : Prop :=
  ∃ c, g.connections.get? n = some c ∧ c.phase ≠ .ended ∧ .connectOk p token g.udpPort ∈ c.sent

/-- The sessions correspond to the connections that have been answered that there is one. -/
structure Matched (g : Gateway) : Prop where
  connection : ∀ {token s}, g.sessions.get? token = some s → ∃! n, g.Welcomed n s.playerId token
  session : ∀ {n c m}, g.connections.get? n = some c → c.phase ≠ .ended → m ∈ c.sent →
    m.isWelcome = true →
      ∃! token, ∃ s, g.sessions.get? token = some s ∧ g.Welcomed n s.playerId token

theorem Follows.stands_of_get? (hf : g.Follows port courses) (hc : g.connections.get? n = some c) :
    Stands port n (courses n) c := by
  have hs : Stands port n (courses n) c.aside := hf.stands (talk?_of_get? hc)
  exact ⟨hs.standing, hs.answered, hs.farewell, hs.ends⟩

theorem holder?_of_serving {s : Session} (hc : g.connections.get? n = some c)
    (hp : c.phase = .serving s) : g.holder? n = some s := by
  rw [holder?_of_get? hc, Connection.session?, hp]

/-- Whoever holds a session is served, when no line is half handled. -/
theorem Idle.serving_of_holder? {s : Session} (hi : g.Idle) (h : g.holder? n = some s) :
    ∃ c, g.connections.get? n = some c ∧ c.phase = .serving s := by
  obtain ⟨c, hc, hs⟩ := Option.bind_eq_some_iff.mp h
  refine ⟨c, hc, ?_⟩
  unfold Connection.session? at hs
  split at hs
  · rename_i s' hp
    exact absurd hp (hi hc).1
  · rename_i s' hp
    rw [hp, Option.some.inj hs]
  · rename_i s' hp
    exact absurd hp (hi hc).2
  · cases hs
  · cases hs

/-- And so is everybody who has been welcomed. -/
theorem Follows.serving_of_welcome (hf : g.Follows port courses) (hi : g.Idle)
    {m : Control.Message} (hc : g.connections.get? n = some c) (hne : c.phase ≠ .ended)
    (hm : m ∈ c.sent) (hw : m.isWelcome = true) :
    ∃ s, c.phase = .serving s ∧ m = .connectOk s.playerId s.token port := by
  have hmem : m ∈ c.welcomes := List.mem_filter.mpr ⟨hm, hw⟩
  have hstanding := (hf.stands_of_get? hc).standing
  unfold Standing at hstanding
  split at hstanding
  · rw [hstanding.2] at hmem
    cases hmem
  · rename_i s hp
    exact absurd hp (hi hc).1
  · rename_i s hp
    rw [hstanding.2] at hmem
    exact ⟨s, hp, List.mem_singleton.mp hmem⟩
  · rename_i s hp
    exact absurd hp (hi hc).2
  · rename_i hp
    exact absurd hp hne

theorem Follows.welcomed_iff (hf : g.Follows port courses) (hi : g.Idle) {p : UInt8}
    {token : UInt32} : g.Welcomed n p token ↔
      ∃ s, g.holder? n = some s ∧ s.playerId = p ∧ s.token = token := by
  constructor
  · -- one is welcomed by what it has sent, and holds a session by its phase
    intro hw
    obtain ⟨c, hc, hne, hm⟩ := hw
    obtain ⟨s, hp, heq⟩ := hf.serving_of_welcome hi hc hne hm rfl
    obtain ⟨rfl, rfl, -⟩ := Control.Message.connectOk.inj heq
    exact ⟨s, holder?_of_serving hc hp, rfl, rfl⟩
  · intro hex
    obtain ⟨s, hs, rfl, rfl⟩ := hex
    obtain ⟨c, hc, hp⟩ := hi.serving_of_holder? hs
    -- while it serves a session, the welcome it has sent is for this session
    have hstanding := (hf.stands_of_get? hc).standing
    rw [Standing, hp] at hstanding
    refine ⟨c, hc, by rw [hp]; simp, ?_⟩
    have hmem : .connectOk s.playerId s.token port ∈ c.welcomes := by
      rw [hstanding.2]
      exact List.mem_cons_self
    rw [hf.udpPort]
    exact (List.mem_filter.mp hmem).1

/-- A session of the table is held by one connection. -/
theorem Follows.held_once (hf : g.Follows port courses) {token : UInt32} {s : Session}
    (h : g.sessions.get? token = some s) :
    ∃! n, ∃ s', g.holder? n = some s' ∧ s'.playerId = s.playerId ∧ s'.token = token := by
  obtain ⟨n, s', hn, rfl⟩ := hf.sessionsHeld.sessionsHeld h
  obtain ⟨s₀, h₀, hid⟩ := hf.orderly.held hn
  rw [h, Option.some.injEq] at h₀
  subst h₀
  refine ⟨n, ⟨s', hn, hid.symm, rfl⟩, fun k hk => ?_⟩
  obtain ⟨s₁, hs₁, -, htoken⟩ := hk
  exact hf.orderly.sole hs₁ hn htoken

/-- **When no line is half handled, the sessions are those that have been announced.** -/
theorem Follows.matched (hf : g.Follows port courses) (hi : g.Idle) : g.Matched := by
  constructor
  · intro token s h
    simpa only [hf.welcomed_iff hi] using hf.held_once h
  · intro n c m hc hne hm hw
    obtain ⟨s, hp, -⟩ := hf.serving_of_welcome hi hc hne hm hw
    have hholder := holder?_of_serving hc hp
    obtain ⟨s₀, h₀, hid⟩ := hf.orderly.held hholder
    refine ⟨s.token, ⟨s₀, h₀, (hf.welcomed_iff hi).mpr ⟨s, hholder, hid.symm, rfl⟩⟩,
      fun token hex => ?_⟩
    obtain ⟨s₁, -, hwelcomed⟩ := hex
    obtain ⟨s₂, hs₂, -, rfl⟩ := (hf.welcomed_iff hi).mp hwelcomed
    rw [hholder, Option.some.injEq] at hs₂
    rw [hs₂]

/-! ## What is possible -/

/-- A player has to wait for room in the queue, or for a token that can be had. -/
def Delays (g : Gateway) (username : String) : Prop :=
  (∃ r, g.sessions.join Generator.patience username g.generator = .ok r) ∧
      g.queue.capacity ≤ g.queue.events.length ∨
    g.sessions.join Generator.patience username g.generator = .error .noToken

/-- Who asks for admission is answered, or has to wait. -/
theorem requestAdmission_or_delays (ho : g.queue.isOpen = true) (username : String) :
    (∃ g', g.requestAdmission n c username = some g') ∨ g.Delays username := by
  unfold requestAdmission
  cases hjoin : g.sessions.join Generator.patience username g.generator with
  | error fault =>
    cases fault with
    | refused reason => exact .inl ⟨_, rfl⟩
    | noToken => exact .inr (.inr hjoin)
  | ok r =>
    obtain ⟨s, sessions, generator⟩ := r
    by_cases hroom : g.queue.events.length < g.queue.capacity
    · left
      simp only [if_pos ho, EventQueue.send?_of_lt ho hroom, Option.map_some]
      exact ⟨_, rfl⟩
    · exact .inr (.inl ⟨⟨_, hjoin⟩, Nat.le_of_not_lt hroom⟩)

/-- A connection that is not over hears the next line as soon as it has answered the one before. -/
theorem hear?_or_delays (ho : g.queue.isOpen = true)
    (hp : c.phase = .greeting ∨ ∃ s, c.phase = .serving s) (m : Control.Message) :
    (∃ g', g.hear? n c m = some g') ∨
      ∃ username version, m = .connect username version ∧ g.Delays username := by
  rcases hp with hp | ⟨s, hp⟩
  · cases m with
    | connect username version =>
      simp only [hear?, hp]
      rcases requestAdmission_or_delays ho username with h | h
      · exact .inl h
      · exact .inr ⟨username, version, rfl, h⟩
    | disconnect | connectOk | connectError | disconnectOk | playerJoin | playerLeave =>
      left
      simp only [hear?, hp]
      exact ⟨_, rfl⟩
  · left
    cases m <;> (simp only [hear?, hp]; exact ⟨_, rfl⟩)

/-- An answer that is due can be given. -/
theorem greets_of_welcoming {s : Session} (hc : g.connections.get? n = some c)
    (hp : c.phase = .welcoming s) : ∃ c',
      g.step? (.greet n) = some { g with connections := g.connections.insert n c' } ∧
        c.Tells s (.connectOk s.playerId s.token g.udpPort) c' := by
  refine ⟨_, ?_, c.tells_write s (.connectOk s.playerId s.token g.udpPort)⟩
  show g.onConnection n (fun c => g.greet? n c) = _
  simp only [onConnection_of_get? hc, greet?, hp]
  rfl

/-- A session whose connection is over ends as soon as there is room for the news. -/
theorem Orderly.departs (hg : g.Orderly) {s : Session} (hc : g.connections.get? n = some c)
    (hp : c.phase = .leaving s) (hroom : g.queue.events.length < g.queue.capacity) :
    ∃ g', g.step? (.depart n) = some g' ∧ g'.holder? n = none ∧
      g'.sessions = g.sessions.close s.token ∧
      g.told (.depart n) = [.disconnected s.playerId] := by
  have hholder : g.holder? n = some s := by
    rw [holder?_of_get? hc, Connection.session?, hp]
  obtain ⟨s₀, hs₀, -⟩ := hg.held hholder
  -- there is room in the queue, and the session stands in the table, so the step does not fail
  have hstep : ∃ g', g.step? (.depart n) = some g' := by
    show ∃ g', g.onConnection n _ = some g'
    rw [onConnection_of_get? hc, depart?, hp]
    have hs₁ : (g.setConnection n { c with phase := .ended }).sessions.get? s.token = some s₀ := hs₀
    simp only [hs₁]
    have hopen : (g.setConnection n { c with phase := .ended }).queue.isOpen = true := hg.isOpen
    rw [EventQueue.send?_of_lt hopen hroom]
    exact ⟨_, rfl⟩
  obtain ⟨g', h⟩ := hstep
  obtain ⟨c', added, sessions, ht, hb⟩ := hg.turn rfl hc h
  have htold := told_of_queue h (by simp) hb.events
  -- only one of the turns begins with leaving
  cases ht with
  | @departed s' hp' =>
    have heq : s' = s := Phase.leaving.inj (hp'.symm.trans hp)
    subst heq
    refine ⟨g', h, ?_, hb.sessions, htold⟩
    rw [hb.holder?, if_pos rfl]
    rfl

/-- Whoever has a session and asks for another moves nothing. -/
theorem unmoved_of_holder? {s : Session} {username version : String} (hs : g.holder? n = some s)
    (h : g.step? (.hear n (.connect username version)) = some g') :
    g'.sessions = g.sessions ∧ g'.queue = g.queue := by
  obtain ⟨c, hc, hear⟩ := Option.bind_eq_some_iff.mp h
  rw [holder?_of_get? hc] at hs
  cases hp : c.phase with
  | greeting | ended =>
    rw [Connection.session?, hp] at hs
    cases hs
  | serving s' =>
    simp only [hear?, hp] at hear
    obtain rfl := Option.some.inj hear
    exact ⟨rfl, rfl⟩
  | welcoming s' | leaving s' =>
    simp only [hear?, hp] at hear
    cases hear

/-- Whoever is turned away moves nothing and goes on waiting for admission. -/
theorem Orderly.retries (hg : g.Orderly) {username version : String} {reason : Control.Refusal}
    (hc : g.connections.get? n = some c) (hw : c.isWritable = true) (hfree : g.holder? n = none)
    (hjoin : g.sessions.join Generator.patience username g.generator = .error (.refused reason))
    (h : g.step? (.hear n (.connect username version)) = some g') :
    g'.sessions = g.sessions ∧ g'.queue.events = g.queue.events ∧
      ∃ c', g'.connections.get? n = some c' ∧ c'.phase = .greeting := by
  obtain ⟨c', added, sessions, ht, hb⟩ := hg.turn rfl hc h
  -- of all turns only a refusal is left: admission fails, and nobody has a session yet
  cases ht with
  | refused hp hjoin' =>
    refine ⟨hb.sessions, hb.events.trans (List.append_nil _), ?_⟩
    have htalk := hb.talk n
    have hw' : c.aside.isWritable = true := hw
    rw [if_pos rfl, Connection.write_of_isWritable hw'] at htalk
    obtain ⟨c₁, hc₁, heq⟩ := Option.map_eq_some_iff.mp htalk
    exact ⟨c₁, hc₁, congrArg Connection.phase heq⟩
  | admitted _ hjoin' =>
    rw [hjoin] at hjoin'
    cases hjoin'
  | @again _ _ s hp =>
    have hp' : c.phase = .serving s := hp
    rw [holder?_of_serving hc hp'] at hfree
    cases hfree
  | passed _ hconnect _ => exact absurd rfl (hconnect username version)

/-- A step of one connection leaves the others alone. -/
theorem Orderly.talk?_of_other (hg : g.Orderly) (hn : a.connection? ≠ some n)
    (h : g.step? a = some g') : g'.talk? n = g.talk? n := by
  cases hk : a.connection? with
  | none =>
    obtain ⟨hconn, -⟩ := apart_of_step? hk h
    rw [talk?, hconn, talk?]
  | some k =>
    have hne : ¬ k = n := fun heq => hn (hk.trans (congrArg some heq))
    cases hc : g.connections.get? k with
    | none =>
      obtain ⟨rfl, rfl⟩ := accept_of_step? hk hc h
      rw [talk?_setConnection, if_neg hne]
    | some c =>
      obtain ⟨c', added, sessions, -, hb⟩ := hg.turn hk hc h
      rw [hb.talk, if_neg hne]

/-- Where writing fails nothing more is said. -/
theorem Orderly.mute (hg : g.Orderly) (hc : g.connections.get? n = some c)
    (hw : c.isWritable = false) (h : g.step? a = some g') :
    ∃ c', g'.connections.get? n = some c' ∧ c'.isWritable = false ∧ c'.sent = c.sent := by
  have htalk : ∃ c', g'.talk? n = some c' ∧ c'.isWritable = false ∧ c'.sent = c.sent := by
    by_cases hn : a.connection? = some n
    · obtain ⟨c', added, sessions, ht, hb⟩ := hg.turn hn hc h
      exact ⟨c', by rw [hb.talk, if_pos rfl], ht.mute hw⟩
    · exact ⟨c.aside, by rw [hg.talk?_of_other hn h, talk?_of_get? hc], hw, rfl⟩
  obtain ⟨_, hsome, hmute⟩ := htalk
  obtain ⟨c', hc', rfl⟩ := Option.map_eq_some_iff.mp hsome
  exact ⟨c', hc', hmute⟩

/-- Only a step of a connection tells of somebody's coming or going. -/
theorem Orderly.connection?_of_marks (hg : g.Orderly) {e : Event} {p : UInt8} (ha : a ≠ .shutDown)
    (h : g.step? a = some g') (he : e ∈ g.told a) (hm : e.Marks p) :
    ∃ n, a.connection? = some n := by
  have hc := (hg.advances ha h).change
  generalize g.told a = told at hc he
  cases hc with
  | still _ _ => cases he
  | @opened n _ _ _ _ _ _ _ _ _ => exact ⟨n, rfl⟩
  | @closed n _ _ _ _ _ => exact ⟨n, rfl⟩
  | touched _ _ _ _ inputs_only => exact absurd hm (not_marks_of_touched inputs_only e he)

/-! ## All together -/

/-- What every run is like, as long as the queue is open. -/
structure Attentive (g₀ : Gateway) (actions : List Action) (g : Gateway) : Prop where
  /-- When no line is half handled, the sessions correspond to the connections that have been answered
  that there is one and have not ended. -/
  matched : g.Idle → g.Matched
  /-- At all times a session has one connection, which has not ended. -/
  held_once : ∀ {token s}, g.sessions.get? token = some s →
    ∃! n, ∃ s', g.holder? n = some s' ∧ s'.playerId = s.playerId ∧ s'.token = token
  /-- Every line that has been heard has its answers. -/
  answered : ∀ {n c}, g.connections.get? n = some c → c.isWritable = true →
    Gets n (lines (g₀.course n actions)) (c.answers ++ c.due g.udpPort)
  /-- Where writing fails nothing more is said. -/
  mute : ∀ {n c a g'}, g.connections.get? n = some c → c.isWritable = false →
    g.step? a = some g' →
      ∃ c', g'.connections.get? n = some c' ∧ c'.isWritable = false ∧ c'.sent = c.sent
  /-- Whoever has a session and asks for another moves nothing. -/
  unmoved : ∀ {n s username version g'}, g.holder? n = some s →
    g.step? (.hear n (.connect username version)) = some g' →
      g'.sessions = g.sessions ∧ g'.queue = g.queue
  /-- Whoever has none and is turned away moves nothing and goes on waiting for admission. -/
  retries : ∀ {n c username version reason g'}, g.connections.get? n = some c →
    c.isWritable = true → g.holder? n = none →
    g.sessions.join Generator.patience username g.generator = .error (.refused reason) →
    g.step? (.hear n (.connect username version)) = some g' →
      g'.sessions = g.sessions ∧ g'.queue.events = g.queue.events ∧
        ∃ c', g'.connections.get? n = some c' ∧ c'.phase = .greeting
  /-- Whoever has said goodbye or hung up is not heard any more. -/
  ends : ∀ {n c a}, g.connections.get? n = some c → a ∈ actions → a.connection? = some n →
    a.isFarewell = true → c.IsOver
  /-- Whoever has not, and can be written to, goes on, turned away or not. -/
  farewell : ∀ {n c}, g.connections.get? n = some c → c.isWritable = true → c.IsOver →
    ∃ a ∈ actions, a.connection? = some n ∧ a.isFarewell = true
  /-- The next line is heard, unless the player has to wait for admission. -/
  hears : ∀ {n c}, g.connections.get? n = some c →
    (c.phase = .greeting ∨ ∃ s, c.phase = .serving s) → ∀ m,
      (∃ g', g.step? (.hear n m) = some g') ∨
        ∃ username version, m = .connect username version ∧ g.Delays username
  /-- Whoever has been admitted can be told so. No other connection is touched by that. -/
  greets : ∀ {n c s}, g.connections.get? n = some c → c.phase = .welcoming s → ∃ c',
    g.step? (.greet n) = some { g with connections := g.connections.insert n c' } ∧
      c.Tells s (.connectOk s.playerId s.token g.udpPort) c'
  /-- However a connection has ended, its session ends when there is room for the news. -/
  departs : ∀ {n c s}, g.connections.get? n = some c → c.phase = .leaving s →
    g.queue.events.length < g.queue.capacity →
      ∃ g', g.step? (.depart n) = some g' ∧ g'.holder? n = none ∧
        g'.sessions = g.sessions.close s.token ∧
        g.told (.depart n) = [.disconnected s.playerId]
  /-- The simulation has heard of each player's coming, and of the going that follows. -/
  standing : ∀ {n c}, g.connections.get? n = some c →
    Standing g.udpPort c (tidings (g₀.course n actions))
  /-- It has heard of both in this order. -/
  listed : ∀ n, (tidings (g₀.course n actions)).Sublist (g₀.history actions)
  /-- And of no other coming or going. -/
  marks : ∀ {a e p g'}, a ≠ .shutDown → g.step? a = some g' → e ∈ g.told a → e.Marks p →
    ∃ n, a.connection? = some n

/-- **Every line is answered once, and every session has its connection**, as long as the queue is
open. Whatever the connections say and however they end, in whatever order. -/
theorem run_attentive {maxPlayers : UInt8} {capacity : Nat} {udpPort : UInt16} {r : Generator}
    {actions : List Action} {g : Gateway}
    (h : (start maxPlayers capacity udpPort r).run? actions = some g)
    (hopen : .shutDown ∉ actions) :
    Attentive (start maxPlayers capacity udpPort r) actions g := by
  have hf := (follows_start maxPlayers capacity udpPort r).run hopen h
  simp only [List.nil_append] at hf
  have hport : udpPort = g.udpPort := hf.udpPort.symm
  -- the steps of a course are those of the run
  have hmem : ∀ n a, (∃ e ∈ (start maxPlayers capacity udpPort r).course n actions, e.2 = a) ↔
      a ∈ actions ∧ a.connection? = some n := by
    intro n a
    have hmap := List.mem_map (f := Prod.snd) (b := a)
      (l := (start maxPlayers capacity udpPort r).course n actions)
    rw [map_course h, List.mem_filter, decide_eq_true_eq] at hmap
    exact hmap.symm
  exact {
    matched := hf.matched
    held_once := hf.held_once
    answered := by
      intro n c hc hw
      rw [← hport]
      exact (hf.stands_of_get? hc).answered hw
    mute := hf.orderly.mute
    unmoved := unmoved_of_holder?
    retries := hf.orderly.retries
    ends := by
      intro n c a hc ha hn hfare
      obtain ⟨e, he, rfl⟩ := (hmem n a).mpr ⟨ha, hn⟩
      exact (hf.stands_of_get? hc).ends e he hfare
    farewell := by
      intro n c hc hw ho
      obtain ⟨e, he, hfare⟩ := (hf.stands_of_get? hc).farewell hw ho
      obtain ⟨ha, hn⟩ := (hmem n e.2).mp ⟨e, he, rfl⟩
      exact ⟨e.2, ha, hn, hfare⟩
    hears := by
      intro n c hc hp m
      show (∃ g', g.onConnection n _ = some g') ∨ _
      rw [onConnection_of_get? hc]
      exact hear?_or_delays hf.orderly.isOpen hp m
    greets := greets_of_welcoming
    departs := hf.orderly.departs
    standing := by
      intro n c hc
      rw [← hport]
      exact (hf.stands_of_get? hc).standing
    listed := fun _ => tidings_sublist h
    marks := hf.orderly.connection?_of_marks
  }

/-- There is one place. The first player asks twice, the next one is turned away as long as the first one
is there, tries again afterwards and is admitted. -/
def oneFreePlace : List Action := [
  .accept 0,
  .hear 0 (.connect "ada" "1.0"),
  .greet 0,
  .hear 0 (.connect "ada" "1.0"),
  .accept 1,
  .hear 1 (.connect "bo" "1.0"),
  .hear 0 .disconnect,
  .depart 0,
  .hear 1 (.connect "bo" "1.0"),
  .greet 1]

theorem run_attentive_of_oneFreePlace : ∃ g,
    (start 1 8 7000 (.cycle [7, 9])).run? oneFreePlace = some g ∧ .shutDown ∉ oneFreePlace ∧
    Gets 1 (lines ((start 1 8 7000 (.cycle [7, 9])).course 1 oneFreePlace))
      [.connectError .serverFull, .connectOk 1 9 7000] ∧
    tidings ((start 1 8 7000 (.cycle [7, 9])).course 1 oneFreePlace) = [.connected 1 "bo"] ∧
    g.sessions.get? 9 = some ⟨1, 9, "bo", none⟩ ∧ ∃! n, g.Welcomed n 1 9 := by
  obtain ⟨g, h⟩ := Option.isSome_iff_exists.mp (show
    ((start 1 8 7000 (.cycle [7, 9])).run? oneFreePlace).isSome by decide +kernel)
  have hopen : .shutDown ∉ oneFreePlace := by decide +kernel
  -- how it ends
  have hend : ((start 1 8 7000 (.cycle [7, 9])).run? oneFreePlace).map
      (fun g => (g.talk? 1, g.sessions.get? 9)) =
    some (some ⟨.serving ⟨1, 9, "bo", none⟩, [], true,
      [.connectError .serverFull, .connectOk 1 9 7000]⟩, some ⟨1, 9, "bo", none⟩) := by
    decide +kernel
  have hidle : ((start 1 8 7000 (.cycle [7, 9])).run? oneFreePlace).all
      (fun g => g.connections.toList.all fun e => match e.2.phase with
        | .welcoming _ | .leaving _ => false
        | _ => true) = true := by
    decide +kernel
  rw [h] at hend hidle
  obtain ⟨htalk, hsession⟩ := Prod.mk.inj (Option.some.inj hend)
  obtain ⟨c, hc, hsaid⟩ := Option.map_eq_some_iff.mp htalk
  have hg := run_attentive h hopen
  -- the gateway is idle if no connection is about to be welcomed or taken leave of
  have hi : g.Idle := by
    intro n c s hc
    have := List.all_eq_true.mp hidle _ (SortedMap.get?_eq_some_iff.mp hc)
    constructor
    · intro hp
      simp [hp] at this
    · intro hp
      simp [hp] at this
  have hp : c.phase = .serving ⟨1, 9, "bo", none⟩ := congrArg Connection.phase hsaid
  have hsent : c.sent = [.connectError .serverFull, .connectOk 1 9 7000] :=
    congrArg Connection.sent hsaid
  have hanswered := hg.answered hc (congrArg Connection.isWritable hsaid)
  rw [Connection.answers, hsent, Connection.due, hp] at hanswered
  have hstanding := hg.standing hc
  rw [Standing, hp] at hstanding
  exact ⟨g, h, hopen, hanswered, hstanding.1, hsession, (hg.matched hi).connection hsession⟩

end Skirmish.Gateway

import Skirmish.Client.Basic
import Skirmish.Proofs.Notices
/-!
# News of the others

A connection that never has more notices waiting than it keeps loses none (`Gateway.keepsUp`). Then
what it has relayed and what still waits is the news since its player was admitted, in the order in
which the sessions changed (`UpToDate`), and a client that has heard all of it knows who has come
since and is still there (`Relays.roster`).

The invariant is `Informs`. It needs no more of the gateway than that the sessions and those who
hold them are in order (`Tidy`), so it is kept after the simulation has gone as well.
-/

namespace Skirmish

/-! ## Staying up to date -/

namespace Connection

/-- The player for whom notices are kept. -/
def subscriber? (c : Connection) : Option Session :=
  match c.phase with
  | .welcoming s => some s
  | .serving s => some s
  | _ => none

/-- What has been relayed. -/
def notices (c : Connection) : List Control.Message := c.sent.filter Control.Message.isNotice

/-- What is still to be relayed to the player of a session. -/
def pending (c : Connection) (s : Session) : List Control.Message :=
  (c.inbox.filter fun notice => notice.about ≠ s.playerId).map Notice.message

/-- What has been relayed to the player of a session since the answer that there is one. -/
inductive Delivered (port : UInt16) (s : Session) (c : Connection) : List Control.Message → Prop
  | welcoming (phase : c.phase = .welcoming s) (silent : c.notices = []) : Delivered port s c []
  | serving {earlier later : List Control.Message} (phase : c.phase = .serving s)
      (sent : c.sent = earlier ++ .connectOk s.playerId s.token port :: later)
      (silent : earlier.filter Control.Message.isNotice = []) :
      Delivered port s c (later.filter Control.Message.isNotice)

/-- What has been relayed to the player of a session and what still waits is the news. -/
structure UpToDate (c : Connection) (port : UInt16) (s : Session) (news : List Notice) : Prop where
  /-- The news is that somebody comes or goes. -/
  isNotice : ∀ notice ∈ news, notice.message.isNotice = true
  /-- None of it is about the player. -/
  others : ∀ notice ∈ news, notice.about ≠ s.playerId
  relayed : ∃ delivered, Delivered port s c delivered ∧
    delivered ++ c.pending s = news.map Notice.message

variable {c c' : Connection} {port : UInt16} {s : Session} {news : List Notice}

theorem isSubscribed_of_subscriber? (h : c.subscriber? = some s) : c.isSubscribed = true := by
  cases hp : c.phase with
  | welcoming | serving => rw [isSubscribed, hp]
  | greeting | leaving | ended =>
    rw [subscriber?, hp] at h
    cases h

theorem isSubscribed_of_greeting (h : c.phase = .greeting) : c.isSubscribed = false := by
  rw [isSubscribed, h]

theorem session?_of_subscriber? (h : c.subscriber? = some s) : c.session? = some s := by
  rw [subscriber?] at h
  cases hp : c.phase with
  | welcoming | serving =>
    rw [hp] at h
    rw [session?, hp]
    exact h
  | greeting | leaving | ended =>
    rw [hp] at h
    cases h

theorem subscriber?_of_serving (h : c.phase = .serving s) : c.subscriber? = some s := by
  rw [subscriber?, h]

theorem subscriber?_keep (c : Connection) (news : List Notice) :
    (c.keep news).subscriber? = c.subscriber? := by
  rw [subscriber?, phase_keep, subscriber?]

/-- Whoever has ended waits for nothing. -/
theorem not_isOver_of_subscriber? (h : c.subscriber? = some s) : ¬ c.IsOver := by
  intro ho
  rcases ho with hp | ⟨s', hp⟩
  · rw [subscriber?, hp] at h
    cases h
  · rw [subscriber?, hp] at h
    cases h

theorem not_isOver_of_greeting (h : c.phase = .greeting) : ¬ c.IsOver := by
  intro ho
  rcases ho with hp | ⟨s', hp⟩
  · rw [h] at hp
    cases hp
  · rw [h] at hp
    cases hp

theorem Delivered.of_same {delivered : List Control.Message} (h : Delivered port s c delivered)
    (hp : c'.phase = c.phase) (hs : c'.sent = c.sent) : Delivered port s c' delivered := by
  cases h with
  | welcoming phase silent =>
    refine .welcoming (hp.trans phase) ?_
    rw [notices, hs]
    exact silent
  | serving phase sent silent => exact .serving (hp.trans phase) (hs.trans sent) silent

/-- More is said to a player who has been welcomed. -/
theorem Delivered.concat {delivered : List Control.Message} (h : Delivered port s c delivered)
    (hp : c.phase = .serving s) (m : Control.Message) :
    Delivered port s { c with sent := c.sent ++ [m] }
      (delivered ++ [m].filter Control.Message.isNotice) := by
  cases h with
  | welcoming phase _ =>
    rw [hp] at phase
    cases phase
  | @serving earlier later phase sent silent =>
    rw [← List.filter_append]
    refine .serving phase ?_ silent
    rw [sent, List.append_assoc]
    rfl

/-- More is said, and no notice. -/
theorem Delivered.answered {delivered : List Control.Message} (h : Delivered port s c delivered)
    {m : Control.Message} (hm : m.isNotice = false) :
    Delivered port s { c with sent := c.sent ++ [m] } delivered := by
  have hnone : [m].filter Control.Message.isNotice = [] :=
    List.filter_cons_of_neg (by rw [hm]; simp)
  cases h with
  | welcoming phase silent =>
    refine .welcoming phase ?_
    rw [notices, List.filter_append, ← notices, silent, hnone]
    rfl
  | serving phase sent silent =>
    have hd := (Delivered.serving phase sent silent).concat phase m
    rwa [hnone, List.append_nil] at hd

/-- Nothing has been relayed and nothing waits that matters. -/
theorem UpToDate.of_same (h : c.UpToDate port s news) (hp : c'.phase = c.phase)
    (hs : c'.sent = c.sent) (hpending : c'.pending s = c.pending s) :
    c'.UpToDate port s news := by
  obtain ⟨delivered, hd, heq⟩ := h.relayed
  exact ⟨h.isNotice, h.others, delivered, hd.of_same hp hs, by rw [hpending, heq]⟩

/-- News about others is kept until it is relayed. -/
theorem UpToDate.keep {more : List Notice} (h : c.UpToDate port s news) (hc : c.isSubscribed = true)
    (hroom : c.inbox.length + more.length ≤ inboxLimit)
    (hnotice : ∀ notice ∈ more, notice.message.isNotice = true)
    (hothers : ∀ notice ∈ more, notice.about ≠ s.playerId) :
    (c.keep more).UpToDate port s (news ++ more) := by
  obtain ⟨delivered, hd, heq⟩ := h.relayed
  refine ⟨List.forall_mem_append.mpr ⟨h.isNotice, hnotice⟩,
    List.forall_mem_append.mpr ⟨h.others, hothers⟩, delivered,
    hd.of_same (c.phase_keep more) (c.sent_keep more), ?_⟩
  have hmore : more.filter (fun notice => notice.about ≠ s.playerId) = more :=
    List.filter_eq_self.mpr fun notice hnotice => decide_eq_true (hothers notice hnotice)
  rw [keep_of_room hc hroom, pending, List.filter_append, hmore, List.map_append, ← pending,
    ← List.append_assoc, heq, List.map_append]

/-- The oldest notice that waits is relayed. -/
theorem UpToDate.relay {notice : Notice} {rest : List Notice} (h : c.UpToDate port s news)
    (hp : c.phase = .serving s) (hinbox : c.inbox = notice :: rest)
    (hother : notice.about ≠ s.playerId) :
    { c with inbox := rest, sent := c.sent ++ [notice.message] }.UpToDate port s news := by
  obtain ⟨delivered, hd, heq⟩ := h.relayed
  rw [pending, hinbox, List.filter_cons_of_pos (by simp [hother]), List.map_cons] at heq
  -- what waits is news
  have hnotice : notice.message.isNotice = true := by
    have hmem : notice.message ∈ news.map Notice.message := by
      rw [← heq]
      exact List.mem_append_right _ List.mem_cons_self
    obtain ⟨notice', hmem', hmessage⟩ := List.mem_map.mp hmem
    rw [← hmessage]
    exact h.isNotice notice' hmem'
  refine ⟨h.isNotice, h.others, _, (hd.concat hp notice.message).of_same rfl rfl, ?_⟩
  rw [List.filter_cons_of_pos hnotice, List.append_assoc, ← heq]
  rfl

end Connection

namespace Gateway

variable {g g' : Gateway} {n : Nat} {c c' : Connection} {a : Action} {told : List Event}
  {sessions : SessionTable} {port : UInt16} {s : Session}

/-- Nothing is relayed to somebody without a session. -/
theorem StepEffect.silent (hm : g.StepEffect n c a c' told sessions) (hp : c'.phase = .greeting)
    (h : c.phase = .greeting → c.inbox = [] ∧ c.notices = []) :
    c'.inbox = [] ∧ c'.notices = [] := by
  have hwrite : ∀ {c₁ : Connection} {m next failed}, next ≠ .greeting → failed ≠ .greeting →
      (c₁.write m next failed).phase ≠ .greeting := fun hn hf =>
    Connection.write_elim (fun c' => c'.phase ≠ .greeting) hn hf
  -- only two steps end in greeting: an answer that could be written, and one that changes nothing
  cases hm with
  | admitted => cases hp
  | greeted _ => exact absurd hp (hwrite (by simp) (by simp))
  | skipped phase _ _ =>
    have hp' : c.phase = .greeting := hp
    rw [phase] at hp'
    cases hp'
  | relayed _ _ _ => exact absurd hp (hwrite (by simp) (by simp))
  | @answered _ m failed answer isOver =>
    unfold Connection.write at hp ⊢
    split at hp
    · rename_i hw
      obtain ⟨hinbox, hnotices⟩ := h hp
      rw [if_pos hw]
      refine ⟨hinbox, ?_⟩
      rw [Connection.notices, List.filter_append, ← Connection.notices, hnotices,
        List.filter_cons_of_neg (by rw [answer]; simp)]
      rfl
    · exact absurd isOver (Connection.not_isOver_of_greeting hp)
  | passed => exact h hp
  | ended isOver _ => exact absurd isOver (Connection.not_isOver_of_greeting hp)
  | departed => cases hp

/-- Whoever waits for notices after a step has just been admitted, or has waited before and stays
up to date. -/
theorem StepEffect.upToDate (hm : g.StepEffect n c a c' told sessions) (hs : c'.subscriber? = some s) :
    (∃ username version, a = .hear n (.connect username version) ∧ c.phase = .greeting ∧
      c' = { c with phase := .welcoming s, inbox := [] } ∧
      told = [.connected s.playerId s.username]) ∨
    c.subscriber? = some s ∧ c'.inbox.length ≤ c.inbox.length ∧
      ∀ news, c.UpToDate g.udpPort s news → c'.UpToDate g.udpPort s news := by
  -- a connection that waits for notices has just been admitted, or each step keeps its account
  cases hm with
  | @admitted username version s' _ _ phase =>
    obtain rfl := Option.some.inj hs
    exact .inl ⟨username, version, rfl, phase, rfl, rfl⟩
  | @greeted _ s' phase =>
    right
    unfold Connection.write at hs ⊢
    split at hs
    · rename_i hw
      obtain rfl := Option.some.inj hs
      rw [if_pos hw]
      refine ⟨by rw [Connection.subscriber?, phase], Nat.le_refl _, fun news hupToDate => ?_⟩
      obtain ⟨delivered, hd, heq⟩ := hupToDate.relayed
      refine ⟨hupToDate.isNotice, hupToDate.others, ?_⟩
      cases hd with
      -- it has waited since it was admitted, and from the greeting on what it is sent counts
      | welcoming _ silent =>
        exact ⟨[].filter Control.Message.isNotice, .serving rfl rfl silent, heq⟩
      | serving phase' _ _ =>
        rw [phase] at phase'
        cases phase'
    · cases hs
  | @skipped _ s' notice rest phase oldest own =>
    right
    have hs' : c.subscriber? = some s := hs
    rw [Connection.subscriber?_of_serving phase, Option.some.injEq] at hs'
    subst hs'
    -- the notice is about the player itself, so it is passed over on both sides
    refine ⟨hs, by rw [oldest]; exact Nat.le_succ _, fun news hupToDate => ?_⟩
    refine hupToDate.of_same rfl rfl ?_
    rw [Connection.pending, Connection.pending, oldest, List.filter_cons_of_neg (by simp [own])]
  | @relayed _ s' notice rest phase oldest other =>
    right
    unfold Connection.write at hs ⊢
    split at hs
    · rename_i hw
      obtain rfl := Option.some.inj hs
      rw [if_pos hw]
      refine ⟨Connection.subscriber?_of_serving phase, by rw [oldest]; exact Nat.le_succ _,
        fun news hupToDate => ?_⟩
      exact (hupToDate.relay phase oldest other).of_same phase.symm rfl rfl
    · cases hs
  | @answered _ m failed answer isOver =>
    right
    unfold Connection.write at hs ⊢
    split at hs
    · rename_i hw
      rw [if_pos hw]
      -- an answer is no notice, and what is delivered has only notices
      refine ⟨hs, Nat.le_refl _, fun news hupToDate => ?_⟩
      obtain ⟨delivered, hd, heq⟩ := hupToDate.relayed
      exact ⟨hupToDate.isNotice, hupToDate.others, delivered, hd.answered answer, heq⟩
    · exact absurd isOver (Connection.not_isOver_of_subscriber? hs)
  | passed => exact .inr ⟨hs, Nat.le_refl _, fun news hupToDate => hupToDate.of_same rfl rfl rfl⟩
  | ended isOver _ => exact absurd isOver (Connection.not_isOver_of_subscriber? hs)
  | departed => cases hs

/-! ## Runs -/

/-- The news during several steps. -/
def news (g : Gateway) (actions : List Action) : List Notice :=
  (g.changes actions).filterMap Event.notice?

/-- Whenever there is news during these steps, a connection has room for it. -/
def keepsUp (g : Gateway) (n : Nat) : List Action → Bool
  | [] => true
  | a :: rest => match g.step? a with
    | some g' =>
      ((g.connections.get? n).all fun c =>
        decide (c.inbox.length + (g.sessions.newsTo g'.sessions).length ≤
          Connection.inboxLimit)) && g'.keepsUp n rest
    | none => true

/-- One of the steps so far has opened a session for a connection. This is the gateway after that
step, and these are the steps that followed. -/
def Admitted (g₀ : Gateway) (past : List Action) (n : Nat) (s : Session) (opened : Gateway)
    (after : List Action) : Prop :=
  ∃ before username version g₁, past = before ++ .hear n (.connect username version) :: after ∧
    g₀.run? before = some g₁ ∧ g₁.step? (.hear n (.connect username version)) = some opened ∧
    g₁.sessions.get? s.token = none ∧ opened.sessions.get? s.token = some s

/-- A connection has relayed or keeps all the news since its player was admitted, and nothing
before. -/
structure Informs (g₀ : Gateway) (past : List Action) (g : Gateway) (n : Nat) (c : Connection) :
    Prop where
  silent : c.phase = .greeting → c.inbox = [] ∧ c.notices = []
  upToDate : ∀ {s}, c.subscriber? = some s → ∃ opened after, g₀.Admitted past n s opened after ∧
    opened.run? after = some g ∧ c.UpToDate g.udpPort s (opened.news after)

variable {g₀ : Gateway} {past : List Action}

theorem run?_concat (h : g₀.run? past = some g) (ha : g.step? a = some g') :
    g₀.run? (past ++ [a]) = some g' := by
  induction past generalizing g₀ with
  | nil =>
    obtain rfl := Option.some.inj h
    rw [List.nil_append, run?, ha]
    rfl
  | cons b rest ih =>
    obtain ⟨g₁, hb, hrest⟩ := run?_cons h
    rw [List.cons_append, run?, hb]
    exact ih hrest

theorem news_cons {rest : List Action} (h : g.step? a = some g') :
    g.news (a :: rest) = g.sessions.newsTo g'.sessions ++ g'.news rest := by
  rw [news, changes_cons h, List.filterMap_append]
  rfl

theorem news_concat (h : g₀.run? past = some g) (ha : g.step? a = some g') :
    g₀.news (past ++ [a]) = g₀.news past ++ g.sessions.newsTo g'.sessions := by
  induction past generalizing g₀ with
  | nil =>
    obtain rfl := Option.some.inj h
    rw [List.nil_append, news_cons ha]
    exact List.append_nil _
  | cons b rest ih =>
    obtain ⟨g₁, hb, hrest⟩ := run?_cons h
    rw [List.cons_append, news_cons hb, news_cons hb, ih hrest, List.append_assoc]

theorem Tidy.run {actions : List Action} (hg : g.Tidy) (h : g.run? actions = some g') :
    g'.Tidy := by
  induction actions generalizing g with
  | nil =>
    obtain rfl := Option.some.inj h
    exact hg
  | cons a rest ih =>
    obtain ⟨g₁, ha, hrest⟩ := run?_cons h
    exact ih (hg.step ha) hrest

theorem Tidy.udpPort_run {actions : List Action} (hg : g.Tidy) (h : g.run? actions = some g') :
    g'.udpPort = g.udpPort := by
  induction actions generalizing g with
  | nil =>
    obtain rfl := Option.some.inj h
    rfl
  | cons a rest ih =>
    obtain ⟨g₁, ha, hrest⟩ := run?_cons h
    obtain ⟨told, he⟩ := hg.effects ha
    exact (ih (hg.step ha) hrest).trans he.udpPort

/-- While a session is held there is no news about its player. -/
theorem Tidy.news_of_others (hg : g.Tidy) (he : g.Effects a told g') (hs : g.holder? n = some s)
    (hs' : g'.holder? n = some s) :
    ∀ notice ∈ g.sessions.newsTo g'.sessions, notice.about ≠ s.playerId := by
  intro notice hmem hid
  rw [hg.newsTo_eq he.change, List.mem_filterMap] at hmem
  obtain ⟨e, hmem, hnotice⟩ := hmem
  have hmarks := (Event.marks_of_notice? hnotice).1
  rw [hid] at hmarks
  obtain ⟨s₁, hs₁, hid₁⟩ := (hg.change he.change).held hs'
  have hhas : g'.Has s.token s.playerId s₁.username := ⟨s₁, hs₁, hid₁, rfl⟩
  rcases hg.has_before he.change hhas with ⟨-, hunmarked⟩ | ⟨hnone, -⟩
  · exact hunmarked e hmem hmarks
  · obtain ⟨s₀, hs₀, -⟩ := hg.held hs
    rw [hnone] at hs₀
    cases hs₀

theorem Admitted.concat {opened : Gateway} {after : List Action}
    (h : g₀.Admitted past n s opened after) (a : Action) :
    g₀.Admitted (past ++ [a]) n s opened (after ++ [a]) := by
  obtain ⟨before, username, version, g₁, rfl, hbefore, hstep, hnone, hsome⟩ := h
  refine ⟨before, username, version, g₁, ?_, hbefore, hstep, hnone, hsome⟩
  rw [List.append_assoc]
  rfl

/-- The news of a step is kept. -/
theorem Informs.keep (hin : Informs g₀ past g n c) (hg : g.Tidy) (he : g.Effects a told g')
    (h : g.step? a = some g') (hheld : ∀ s, c.subscriber? = some s → g.holder? n = some s)
    (hroom : ∀ s, c.subscriber? = some s →
      c.inbox.length + (g.sessions.newsTo g'.sessions).length ≤ Connection.inboxLimit)
    (hc' : g'.connections.get? n = some (c.keep (g.sessions.newsTo g'.sessions))) :
    Informs g₀ (past ++ [a]) g' n (c.keep (g.sessions.newsTo g'.sessions)) := by
  constructor
  -- a step of somebody else only adds to the inbox, and there is room for all the news
  case silent =>
    intro hp
    rw [Connection.phase_keep] at hp
    rw [Connection.keep_of_not_isSubscribed (Connection.isSubscribed_of_greeting hp)]
    exact hin.silent hp
  case upToDate =>
    intro s hs'
    have hs := hs'
    rw [Connection.subscriber?_keep] at hs
    obtain ⟨opened, after, hadmitted, hrun, hupToDate⟩ := hin.upToDate hs
    have hholder : g'.holder? n = some s := by
      rw [holder?_of_get? hc', Connection.session?_of_subscriber? hs']
    refine ⟨opened, after ++ [a], hadmitted.concat a, run?_concat hrun h, ?_⟩
    rw [news_concat hrun h, he.udpPort]
    refine hupToDate.keep (Connection.isSubscribed_of_subscriber? hs) (hroom s hs)
      (fun notice hmem => ?_) (hg.news_of_others he (hheld s hs) hholder)
    obtain ⟨e, -, hnotice⟩ := List.mem_filterMap.mp hmem
    exact (Event.marks_of_notice? hnotice).2

/-- Somebody has just been admitted. The first notice is about the newcomer and will not be relayed.
-/
theorem Informs.of_admitted {username version : String} (hg : g.Tidy)
    (he : g.Effects (.hear n (.connect username version)) [.connected s.playerId s.username] g')
    (hpast : g₀.run? past = some g)
    (h : g.step? (.hear n (.connect username version)) = some g') (hsilent : c.notices = [])
    (hc' : g'.connections.get? n = some
      ({ c with phase := .welcoming s, inbox := [] }.keep (g.sessions.newsTo g'.sessions))) :
    Informs g₀ (past ++ [.hear n (.connect username version)]) g' n
      ({ c with phase := .welcoming s, inbox := [] }.keep (g.sessions.newsTo g'.sessions)) := by
  have hnews : g.sessions.newsTo g'.sessions = [joinNotice s] := by
    rw [hg.newsTo_eq he.change]
    rfl
  have hkeep : ({ c with phase := .welcoming s, inbox := [] } : Connection).keep [joinNotice s] =
      { c with phase := .welcoming s, inbox := [joinNotice s] } :=
    Connection.keep_of_room rfl (by simp [Connection.inboxLimit])
  rw [hnews, hkeep] at hc' ⊢
  -- the session that has been opened is that of the connection
  have hopened : g.sessions.get? s.token = none ∧ g'.sessions.get? s.token = some s := by
    have hholder : g'.holder? n = some s := by
      rw [holder?_of_get? hc']
      rfl
    have hchange := he.change
    generalize hlist : [Event.connected s.playerId s.username] = list at hchange
    cases hchange with
    | still _ _ => cases hlist
    | opened fresh _ _ sessions holder =>
      rw [holder, if_pos rfl, Option.some.injEq] at hholder
      subst hholder
      exact ⟨fresh, by rw [get?_opened sessions, if_pos rfl]⟩
  constructor
  case silent =>
    intro hp
    cases hp
  case upToDate =>
    intro s' hs'
    obtain rfl := Option.some.inj hs'
    refine ⟨g', [], ⟨past, username, version, g, rfl, hpast, h, hopened⟩, rfl, ?_, ?_, [],
      .welcoming rfl hsilent, ?_⟩
    · intro notice hmem
      cases hmem
    · intro notice hmem
      cases hmem
    · rw [Connection.pending, List.filter_cons_of_neg (by simp [joinNotice])]
      rfl

/-- **Every step keeps a connection informed**, if there is room for the news. -/
theorem Informs.step (hg : g.Tidy) (hpast : g₀.run? past = some g) (h : g.step? a = some g')
    (hin : ∀ {c}, g.connections.get? n = some c → Informs g₀ past g n c)
    (hroom : ∀ {c}, g.connections.get? n = some c →
      c.inbox.length + (g.sessions.newsTo g'.sessions).length ≤ Connection.inboxLimit)
    (hc' : g'.connections.get? n = some c') : Informs g₀ (past ++ [a]) g' n c' := by
  obtain ⟨told, he⟩ := hg.effects h
  have hheld : ∀ {c}, g.connections.get? n = some c → ∀ s, c.subscriber? = some s →
      g.holder? n = some s := by
    intro c hc s hs
    rw [holder?_of_get? hc, Connection.session?_of_subscriber? hs]
  by_cases hn : a.connection? = some n
  · -- the effect of a step on its own connection comes first, and then the news it leads to
    cases hc : g.connections.get? n with
    | none =>
      obtain ⟨rfl, rfl⟩ := accept_of_step? hn hc h
      have hfresh : (g.connections.insert n .fresh).get? n = some c' := hc'
      rw [SortedMap.get?_insert_self, Option.some.injEq] at hfresh
      subst hfresh
      refine ⟨fun _ => ⟨rfl, rfl⟩, fun hs => ?_⟩
      cases hs
    | some c =>
      obtain ⟨c₁, sessions, hstepEffect, hget⟩ := he.own hn hc
      obtain rfl := Option.some.inj (hget.symm.trans hc')
      -- either the connection is admitted by this step, or its account is kept
      by_cases hnew : c.phase = .greeting ∧ ∃ s, c₁.subscriber? = some s
      · obtain ⟨hp, s, hs⟩ := hnew
        rcases hstepEffect.upToDate hs with ⟨username, version, rfl, -, rfl, rfl⟩ | ⟨hsub, -, -⟩
        · exact .of_admitted hg he hpast h ((hin hc).silent hp).2 hget
        · rw [Connection.subscriber?, hp] at hsub
          cases hsub
      · -- the connection was subscribed before if it is now
        have hold : ∀ s, c₁.subscriber? = some s → c.subscriber? = some s ∧
            c₁.inbox.length ≤ c.inbox.length ∧
            ∀ news, c.UpToDate g.udpPort s news → c₁.UpToDate g.udpPort s news := by
          intro s hs
          rcases hstepEffect.upToDate hs with ⟨_, _, -, hp, -, -⟩ | hkept
          · exact absurd ⟨hp, s, hs⟩ hnew
          · exact hkept
        have hin₁ : Informs g₀ past g n c₁ := by
          refine ⟨fun hp => hstepEffect.silent hp (hin hc).silent, fun {s} hs => ?_⟩
          obtain ⟨hsub, -, hupToDate⟩ := hold s hs
          obtain ⟨opened, after, hadmitted, hrun, h₁⟩ := (hin hc).upToDate hsub
          exact ⟨opened, after, hadmitted, hrun, hupToDate _ h₁⟩
        refine hin₁.keep hg he h (fun s hs => hheld hc s (hold s hs).1) (fun s hs => ?_) hget
        have hle := (hold s hs).2.1
        have := hroom hc
        omega
  · rw [he.others hn] at hc'
    obtain ⟨c, hc, rfl⟩ := Option.map_eq_some_iff.mp hc'
    refine (hin hc).keep hg he h (hheld hc) (fun _ _ => hroom hc) ?_
    rw [he.others hn, hc, Option.map_some]

theorem Informs.run {actions : List Action} (hg : g.Tidy) (hpast : g₀.run? past = some g)
    (h : g.run? actions = some g')
    (hin : ∀ {c}, g.connections.get? n = some c → Informs g₀ past g n c)
    (hkeeps : g.keepsUp n actions = true) (hc' : g'.connections.get? n = some c') :
    Informs g₀ (past ++ actions) g' n c' := by
  -- on the actions, with those before them in front; the invariant holds of every connection
  induction actions generalizing g past with
  | nil =>
    obtain rfl := Option.some.inj h
    rw [List.append_nil]
    exact hin hc'
  | cons a rest ih =>
    obtain ⟨g₁, ha, hrest⟩ := run?_cons h
    rw [keepsUp, ha, Bool.and_eq_true] at hkeeps
    -- `keepsUp` asks for room at every step, so the first one is split off
    have hroom : ∀ {c}, g.connections.get? n = some c →
        c.inbox.length + (g.sessions.newsTo g₁.sessions).length ≤ Connection.inboxLimit := by
      intro c hc
      have hall := hkeeps.1
      rw [hc] at hall
      exact of_decide_eq_true hall
    have hrun := ih (hg.step ha) (run?_concat hpast ha) hrest
      (fun hc => Informs.step hg hpast ha hin hroom hc) hkeeps.2
    rw [List.append_assoc] at hrun
    exact hrun

/-! ## Who is there -/

/-- The session is there after each of these steps. -/
def Stays (g : Gateway) (token : UInt32) (p : UInt8) (username : String) (actions : List Action) :
    Prop :=
  ∀ k g', g.run? (actions.take k) = some g' → g'.Has token p username

/-- One of these steps opens a session of the player, and it is still there after the last one. -/
def Brings (g : Gateway) (p : UInt8) (username : String) (actions : List Action) : Prop :=
  ∃ before a after g₁ g₂ token, actions = before ++ a :: after ∧ g.run? before = some g₁ ∧
    g₁.step? a = some g₂ ∧ g₁.sessions.get? token = none ∧ g₂.Stays token p username after

end Gateway

/-- The last that is told of a player is that the player comes, under this name. -/
def LastComes (events : List Event) (p : UInt8) (username : String) : Prop :=
  ∃ earlier later, events = earlier ++ .connected p username :: later ∧ ∀ e ∈ later, ¬ e.Marks p

section

variable {p : UInt8} {username : String}

theorem not_lastComes_nil : ¬ LastComes [] p username := by
  intro h
  obtain ⟨earlier, later, heq, -⟩ := h
  cases earlier <;> cases heq

theorem lastComes_cons {e : Event} {rest : List Event} : LastComes (e :: rest) p username ↔
    (e = .connected p username ∧ ∀ e ∈ rest, ¬ e.Marks p) ∨ LastComes rest p username := by
  constructor
  · intro h
    obtain ⟨earlier, later, heq, hlater⟩ := h
    cases earlier with
    | nil =>
      obtain ⟨rfl, rfl⟩ := List.cons.inj heq
      exact .inl ⟨rfl, hlater⟩
    | cons d earlier =>
      obtain ⟨rfl, rfl⟩ := List.cons.inj heq
      exact .inr ⟨earlier, later, rfl, hlater⟩
  · intro h
    rcases h with ⟨rfl, hrest⟩ | ⟨earlier, later, rfl, hlater⟩
    · exact ⟨[], rest, rfl, hrest⟩
    · exact ⟨e :: earlier, later, rfl, hlater⟩

theorem lastComes_append {events rest : List Event} :
    LastComes (events ++ rest) p username ↔
      (LastComes events p username ∧ ∀ e ∈ rest, ¬ e.Marks p) ∨ LastComes rest p username := by
  induction events with
  | nil => simp [not_lastComes_nil]
  | cons e events ih =>
    rw [List.cons_append, lastComes_cons, ih, lastComes_cons]
    simp only [List.forall_mem_append]
    tauto

end

namespace Gateway

variable {g g' : Gateway} {a : Action} {told : List Event} {token : UInt32} {p : UInt8}
  {username : String} {rest actions : List Action}

theorem Stays.now (h : g.Stays token p username actions) : g.Has token p username := h 0 g rfl

theorem stays_cons (ha : g.step? a = some g') : g.Stays token p username (a :: rest) ↔
    g.Has token p username ∧ g'.Stays token p username rest := by
  constructor
  · intro h
    refine ⟨h.now, fun k g₁ hrun => h (k + 1) g₁ ?_⟩
    rw [List.take_succ_cons, run?, ha]
    exact hrun
  · intro h k g₁ hrun
    cases k with
    | zero =>
      obtain rfl := Option.some.inj hrun
      exact h.1
    | succ k =>
      obtain ⟨g₂, ha', hrest⟩ := run?_cons hrun
      rw [ha, Option.some.injEq] at ha'
      subst ha'
      exact h.2 k g₁ hrest

theorem brings_cons (ha : g.step? a = some g') : g.Brings p username (a :: rest) ↔
    (∃ token, g.sessions.get? token = none ∧ g'.Stays token p username rest) ∨
      g'.Brings p username rest := by
  constructor
  · -- the session is brought by the first action or by one of the rest
    intro h
    obtain ⟨before, b, after, g₁, g₂, token, heq, hbefore, hb, hnone, hstays⟩ := h
    cases before with
    | nil =>
      obtain ⟨rfl, rfl⟩ := List.cons.inj heq
      obtain rfl := Option.some.inj hbefore
      obtain rfl := Option.some.inj (ha.symm.trans hb)
      exact .inl ⟨token, hnone, hstays⟩
    | cons d before =>
      obtain ⟨rfl, rfl⟩ := List.cons.inj heq
      rw [run?, ha] at hbefore
      exact .inr ⟨before, b, after, g₁, g₂, token, rfl, hbefore, hb, hnone, hstays⟩
  · intro h
    rcases h with ⟨token, hnone, hstays⟩ | hbrings
    · exact ⟨[], a, rest, g, g', token, rfl, rfl, ha, hnone, hstays⟩
    · obtain ⟨before, b, after, g₁, g₂, token, rfl, hbefore, hb, hnone, hstays⟩ := hbrings
      refine ⟨a :: before, b, after, g₁, g₂, token, rfl, ?_, hb, hnone, hstays⟩
      rw [run?, ha]
      exact hbefore

/-- Inputs mark nobody. -/
theorem Tidy.marks_iff (hg : g.Tidy) (hc : g.Change a told g') :
    (∀ e ∈ g.sessions.changesTo g'.sessions, ¬ e.Marks p) ↔ ∀ e ∈ told, ¬ e.Marks p := by
  rw [← hg.changesTo_of_change hc]
  refine ⟨fun h e hmem hmarks => ?_, fun h e hmem => h e (List.mem_filter.mp hmem).1⟩
  refine h e (List.mem_filter.mpr ⟨hmem, ?_⟩) hmarks
  rcases hmarks with ⟨username, rfl⟩ | rfl
  · rfl
  · rfl

/-- A session stays as long as nobody of its number comes or goes. -/
theorem Tidy.stays_iff (hg : g.Tidy) (h : g.run? actions = some g')
    (hhas : g.Has token p username) :
    g.Stays token p username actions ↔ ∀ e ∈ g.changes actions, ¬ e.Marks p := by
  -- on the actions: whoever stays through the first one is not marked by it, and the other way
  -- round
  induction actions generalizing g with
  | nil =>
    refine iff_of_true (fun k g₁ hrun => ?_) (by simp [changes])
    rw [List.take_nil] at hrun
    obtain rfl := Option.some.inj hrun
    exact hhas
  | cons a rest ih =>
    obtain ⟨g₁, ha, hrest⟩ := run?_cons h
    obtain ⟨told, he⟩ := hg.effects ha
    rw [stays_cons ha, changes_cons ha, List.forall_mem_append, hg.marks_iff he.change,
      and_iff_right hhas]
    have hih := fun hafter => ih (hg.step ha) hrest hafter
    constructor
    · intro hstays
      refine ⟨?_, (hih hstays.now).mp hstays⟩
      rcases hg.has_before he.change hstays.now with ⟨-, hunmarked⟩ | ⟨hnone, -⟩
      · exact hunmarked
      · obtain ⟨s, hs, -⟩ := hhas
        rw [hnone] at hs
        cases hs
    · intro hunmarked
      rcases hg.has_after he.change hhas with hafter | ⟨-, htold, -⟩
      · exact (hih hafter).mpr hunmarked.2
      · refine absurd (.inr rfl) (hunmarked.1 (.disconnected p) ?_)
        rw [htold]
        exact List.mem_cons_self

/-- If the last that happens to a number is that somebody comes, then a session has been opened that
is still there, and otherwise not. -/
theorem Tidy.brings_iff (hg : g.Tidy) (h : g.run? actions = some g') :
    g.Brings p username actions ↔ LastComes (g.changes actions) p username := by
  induction actions generalizing g with
  | nil =>
    refine iff_of_false (fun hbrings => ?_) not_lastComes_nil
    obtain ⟨before, a, after, _, _, _, hnil, -⟩ := hbrings
    cases before <;> cases hnil
  | cons a rest ih =>
    obtain ⟨g₁, ha, hrest⟩ := run?_cons h
    obtain ⟨told, he⟩ := hg.effects ha
    have hg₁ := hg.step ha
    -- what the rest brings is the induction hypothesis; what the first action brings has to stay
    rw [brings_cons ha, changes_cons ha, lastComes_append, ih hg₁ hrest]
    refine or_congr_left ⟨fun hex => ?_, fun hand => ?_⟩
    · obtain ⟨token, hnone, hstays⟩ := hex
      refine ⟨?_, (hg₁.stays_iff hrest hstays.now).mp hstays⟩
      rcases hg.has_before he.change hstays.now with ⟨⟨s, hs, -⟩, -⟩ | ⟨-, htold⟩
      · rw [hnone] at hs
        cases hs
      · rw [← hg.changesTo_of_change he.change, htold]
        exact ⟨[], [], rfl, by simp⟩
    · obtain ⟨⟨earlier, later, hchanges, -⟩, hunmarked⟩ := hand
      -- it is this step that opens the session
      have hmem : .connected p username ∈ told := by
        have hmem : Event.connected p username ∈ g.sessions.changesTo g₁.sessions := by
          rw [hchanges]
          exact List.mem_append_right _ List.mem_cons_self
        rw [← hg.changesTo_of_change he.change] at hmem
        exact (List.mem_filter.mp hmem).1
      cases he.change with
      | still _ _ => cases hmem
      | @opened _ _ _ new _ fresh _ _ sessions _ =>
        obtain ⟨rfl, rfl⟩ := Event.connected.inj (List.mem_singleton.mp hmem)
        have hhas : g₁.Has new.token new.playerId new.username :=
          ⟨new, by rw [get?_opened sessions, if_pos rfl], rfl, rfl⟩
        exact ⟨new.token, fresh, (hg₁.stays_iff hrest hhas).mpr hunmarked⟩
      | closed _ _ _ => cases List.mem_singleton.mp hmem
      | touched _ _ _ _ inputs_only =>
        exact absurd (.inl ⟨username, rfl⟩) (not_marks_of_touched (q := p) inputs_only _ hmem)

end Gateway

/-! ## The roster -/

namespace Client

/-- Only notices are heeded. -/
theorem foldl_hear_filter (c : Client) (messages : List Control.Message) :
    messages.foldl hear c = (messages.filter Control.Message.isNotice).foldl hear c := by
  induction messages generalizing c with
  | nil => rfl
  | cons m rest ih =>
    cases m with
    | playerJoin | playerLeave => exact ih _
    | connect | disconnect | connectOk | connectError | disconnectOk => exact ih c

/-- A roster has whoever has come last, and whoever it had before and of whom nothing has been
heard. -/
theorem get?_roster_foldl_hear (events : List Event) (c : Client) (p : UInt8) (username : String) :
    (((events.filterMap Event.notice?).map Notice.message).foldl hear c).roster.get? p =
        some username ↔
      LastComes events p username ∨
        c.roster.get? p = some username ∧ ∀ e ∈ events, ¬ e.Marks p := by
  -- on the events: the latest one about the player is heard last
  induction events generalizing c with
  | nil => simp [not_lastComes_nil]
  | cons e rest ih =>
    rw [lastComes_cons, List.forall_mem_cons]
    cases e with
    | connected q name =>
      refine (ih _).trans ?_
      show _ ∨ (c.roster.insert q name).get? p = some username ∧ _ ↔ _
      rw [SortedMap.get?_insert]
      by_cases hq : q = p
      · subst hq
        simp [Event.Marks, or_comm]
      · simp [Event.Marks, hq]
    | disconnected q =>
      refine (ih _).trans ?_
      show _ ∨ (c.roster.erase q).get? p = some username ∧ _ ↔ _
      rw [SortedMap.get?_erase]
      by_cases hq : q = p
      · subst hq
        simp [Event.Marks]
      · simp [Event.Marks, hq]
    | udpReady | endpointChanged | input =>
      refine (ih c).trans ?_
      simp [Event.Marks]

end Client

namespace Gateway

variable {g : Gateway} {n : Nat} {c : Connection} {s : Session}

/-- What the player of a session is told of the others after the steps since the session was opened.
-/
structure Relays (opened : Gateway) (after : List Action) (s : Session) (c : Connection)
    (later : List Control.Message) : Prop where
  stays : opened.Stays s.token s.playerId s.username after
  /-- What has been relayed and what still waits is the news since, in the order in which the
  sessions changed. -/
  news : later.filter Control.Message.isNotice ++ c.pending s =
    (opened.news after).map Notice.message
  /-- None of it is about the player. -/
  others : ∀ m ∈ (opened.news after).map Notice.message,
    m ≠ .playerLeave s.playerId ∧ ∀ username, m ≠ .playerJoin s.playerId username
  /-- When nothing waits any more, a client that has heard it all has those on its roster who have
  come since and are still there. -/
  roster : c.pending s = [] → ∀ name ending port, ∃ client,
    Client.connect name ending (.connectOk s.playerId s.token port :: later) = .ok client ∧
      ∀ p username, client.pollAll.1.roster.get? p = some username ↔ opened.Brings p username after

theorem relays_of_news {opened : Gateway} {after : List Action} {later : List Control.Message}
    (ho : opened.Tidy) (hrun : opened.run? after = some g)
    (hs : opened.sessions.get? s.token = some s)
    (hothers : ∀ notice ∈ opened.news after, notice.about ≠ s.playerId)
    (hnews : later.filter Control.Message.isNotice ++ c.pending s =
      (opened.news after).map Notice.message) : opened.Relays after s c later := by
  constructor
  case stays =>
    -- if the session had ended, its end would be news about this player
    refine (ho.stays_iff hrun ⟨s, hs, rfl, rfl⟩).mpr fun e hmem hmarks => ?_
    obtain ⟨notice, hnotice, habout⟩ := Event.exists_notice?_of_marks hmarks
    exact hothers notice (List.mem_filterMap.mpr ⟨e, hmem, hnotice⟩) habout
  case news => exact hnews
  case others =>
    intro m hm
    obtain ⟨notice, hmem, rfl⟩ := List.mem_map.mp hm
    have hne := hothers notice hmem
    obtain ⟨e, -, hnotice⟩ := List.mem_filterMap.mp hmem
    rcases Event.message_of_notice? hnotice with ⟨username, hmessage⟩ | hmessage
    · rw [hmessage]
      exact ⟨by simp, fun name hjoin => hne (Control.Message.playerJoin.inj hjoin).1⟩
    · rw [hmessage]
      exact ⟨fun hleave => hne (Control.Message.playerLeave.inj hleave), by simp⟩
  case roster =>
    intro hpending name ending port
    -- the client hears what is sent, and nothing waits any more, so this is all the news
    refine ⟨_, rfl, fun p username => ?_⟩
    show (later.foldl Client.hear _).roster.get? p = _ ↔ _
    rw [hpending, List.append_nil] at hnews
    rw [Client.foldl_hear_filter, hnews, Gateway.news, Client.get?_roster_foldl_hear,
      ho.brings_iff hrun]
    refine or_iff_left fun hbefore => ?_
    cases hbefore.1

/-- The oldest notice that waits can be relayed. -/
theorem relays_oldest {notice : Notice} {rest : List Notice} (hc : g.connections.get? n = some c)
    (hp : c.phase = .serving s) (hinbox : c.inbox = notice :: rest) : ∃ c',
      g.step? (.relay n) = some { g with connections := g.connections.insert n c' } ∧
        if notice.about = s.playerId then c' = { c with inbox := rest }
        else { c with inbox := rest }.Tells s notice.message c' := by
  have hstep : g.step? (.relay n) = g.relay? n c := onConnection_of_get? hc
  rw [hstep, relay?]
  simp only [hp, hinbox]
  by_cases hown : notice.about = s.playerId
  · rw [if_pos hown]
    exact ⟨_, rfl, by rw [if_pos hown]⟩
  · rw [if_neg hown]
    exact ⟨_, rfl, by rw [if_neg hown]; exact Connection.tells_write _ s notice.message⟩

/-- **The players who stay hear of all who come and go**, as long as no notices are lost. Whoever is
served has been admitted by one of the steps, and has been told so. After that the connection relays
who has come and who has gone since, each once and in order, and nothing of its own player. What has
not been relayed yet waits, and the oldest of it can be relayed next: the player is told, or writing
fails, but of itself nobody is told. -/
theorem run_relays {maxPlayers : UInt8} {capacity : Nat} {udpPort : UInt16} {r : Generator}
    {actions : List Action} {g : Gateway} {n : Nat} {c : Connection} {s : Session}
    (h : (start maxPlayers capacity udpPort r).run? actions = some g)
    (hkeeps : (start maxPlayers capacity udpPort r).keepsUp n actions = true)
    (hc : g.connections.get? n = some c) (hp : c.phase = .serving s) :
    ∃ opened after earlier later,
      (start maxPlayers capacity udpPort r).Admitted actions n s opened after ∧
      opened.run? after = some g ∧
      c.sent = earlier ++ .connectOk s.playerId s.token udpPort :: later ∧
      (∀ m ∈ earlier, m.isNotice = false) ∧ opened.Relays after s c later ∧
      ∀ notice rest, c.inbox = notice :: rest → ∃ c',
        g.step? (.relay n) = some { g with connections := g.connections.insert n c' } ∧
          if notice.about = s.playerId then c' = { c with inbox := rest }
          else { c with inbox := rest }.Tells s notice.message c' := by
  have hstart := (orderly_start maxPlayers capacity udpPort r).toTidy
  have hport : g.udpPort = udpPort := hstart.udpPort_run h
  -- in the beginning there is no connection, so all of them are informed
  have hin : Informs (start maxPlayers capacity udpPort r) ([] ++ actions) g n c :=
    Informs.run hstart rfl h (fun hnone => by cases hnone) hkeeps hc
  obtain ⟨opened, after, hadmitted, hrun, hupToDate⟩ :=
    hin.upToDate (Connection.subscriber?_of_serving hp)
  rw [List.nil_append] at hadmitted
  obtain ⟨delivered, hd, hnews⟩ := hupToDate.relayed
  cases hd with
  | welcoming hp' _ =>
    rw [hp] at hp'
    cases hp'
  -- the connection has been welcomed, since it is served, and what came later are the notices
  | @serving earlier later _ hsent hsilent =>
    rw [hport] at hsent
    refine ⟨opened, after, earlier, later, hadmitted, hrun, hsent, ?_, ?_, ?_⟩
    · intro m hm
      have := List.filter_eq_nil_iff.mp hsilent m hm
      simpa using this
    · obtain ⟨before, username, version, g₁, rfl, hbefore, hstep, -, hs⟩ := hadmitted
      exact relays_of_news ((hstart.run hbefore).step hstep) hrun hs hupToDate.others hnews
    · exact fun _ _ => relays_oldest hc hp

/-- The second player sees the first one go and another come, who gets the same number. Then the
simulation goes, and somebody who comes too late is not admitted. -/
def joinsAndLeaves : List Action := [
  .accept 0,
  .hear 0 (.connect "ada" "1.0"),
  .greet 0,
  .accept 1,
  .hear 1 (.connect "bo" "1.0"),
  .hangUp 0,
  .greet 1,
  .depart 0,
  .relay 1,
  .accept 2,
  .hear 2 (.connect "cy" "1.0"),
  .relay 1,
  .shutDown,
  .accept 3,
  .hear 3 (.connect "di" "1.0"),
  .relay 1]

theorem run_relays_of_joinsAndLeaves : ∃ g c opened after earlier later client,
    (start 4 8 7000 (.cycle [7, 9, 11])).run? joinsAndLeaves = some g ∧
    (start 4 8 7000 (.cycle [7, 9, 11])).keepsUp 1 joinsAndLeaves = true ∧
    g.connections.get? 1 = some c ∧ c.phase = .serving ⟨2, 9, "bo", none⟩ ∧
    c.sent = [.connectOk 2 9 7000, .playerLeave 1, .playerJoin 1 "cy"] ∧
    (start 4 8 7000 (.cycle [7, 9, 11])).Admitted joinsAndLeaves 1 ⟨2, 9, "bo", none⟩ opened after ∧
    c.sent = earlier ++ .connectOk 2 9 7000 :: later ∧
    opened.Relays after ⟨2, 9, "bo", none⟩ c later ∧
    Client.connect "bo" .endOfStream (.connectOk 2 9 7000 :: later) = .ok client ∧
    ∀ p username, client.pollAll.1.roster.get? p = some username ↔
      opened.Brings p username after := by
  obtain ⟨g, h⟩ := Option.isSome_iff_exists.mp (show
    ((start 4 8 7000 (.cycle [7, 9, 11])).run? joinsAndLeaves).isSome by decide +kernel)
  have hkeeps : (start 4 8 7000 (.cycle [7, 9, 11])).keepsUp 1 joinsAndLeaves = true := by
    decide +kernel
  have hend : ((start 4 8 7000 (.cycle [7, 9, 11])).run? joinsAndLeaves).bind
      (fun g => g.connections.get? 1) = some ⟨.serving ⟨2, 9, "bo", none⟩, [], true,
        [.connectOk 2 9 7000, .playerLeave 1, .playerJoin 1 "cy"]⟩ := by
    decide +kernel
  rw [h, Option.bind_some] at hend
  obtain ⟨opened, after, earlier, later, hadmitted, -, hsent, -, hrelays, -⟩ :=
    run_relays h hkeeps hend rfl
  obtain ⟨client, hclient, hroster⟩ := hrelays.roster rfl "bo" .endOfStream 7000
  exact ⟨g, _, opened, after, earlier, later, client, h, hkeeps, hend, rfl, rfl, hadmitted, hsent,
    hrelays, hclient, hroster⟩

end Gateway

end Skirmish

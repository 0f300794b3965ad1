import Mathlib.Data.List.Forall2
import Skirmish.Proofs.Bookkeeping
/-!
# What is said on a connection

A connection takes its steps among those of all the others. Its course (`Gateway.course`) has only its
own, each with the gateway as it was. The course alone tells what has been said on the connection, and
what the simulation has heard of its player (`Gateway.Stands`): each line that was heard has got the
answer that is due (`Gateway.Gets`), a player who has come and gone has been announced and taken leave
of, once each (`Gateway.Standing`), and a connection ends by a farewell unless writing fails.

`Stands.turn` follows the list of what a connection can do, one step at a time.
-/

namespace Skirmish

namespace Control.Message

/-- It tells of somebody's coming or going, and is no answer. -/
def isNotice : Message → Bool
  | playerJoin _ _ | playerLeave _ => true
  | _ => false

/-- A player is told of a session. -/
def isWelcome : Message → Bool
  | connectOk _ _ _ => true
  | _ => false

end Control.Message

/-- What a step makes a connection hear. -/
def Action.line? : Action → Option Control.Message
  | .hear _ m => some m
  | _ => none

/-- The player says goodbye, or hangs up. -/
def Action.isFarewell : Action → Bool
  | .hear _ .disconnect | .hangUp _ => true
  | _ => false

namespace Connection

/-- What has been answered, in order. -/
def answers (c : Connection) : List Control.Message := c.sent.filter fun m => !m.isNotice

/-- What the player has been told of sessions. -/
def welcomes (c : Connection) : List Control.Message := c.sent.filter Control.Message.isWelcome

/-- What is still to be answered. -/
def due (c : Connection) (port : UInt16) : List Control.Message :=
  match c.phase with
  | .welcoming s => [.connectOk s.playerId s.token port]
  | _ => []

/-- Nothing is heard any more. -/
def IsOver (c : Connection) : Prop := c.phase = .ended ∨ ∃ s, c.phase = .leaving s

variable {c c' : Connection}

theorem write_of_isWritable {m : Control.Message} {next failed : Phase} (h : c.isWritable = true) :
    c.write m next failed = { c with sent := c.sent ++ [m], phase := next } :=
  if_pos h

theorem isWritable_write (c : Connection) (m : Control.Message) (next failed : Phase) :
    (c.write m next failed).isWritable = c.isWritable :=
  write_elim (fun c' => c'.isWritable = c.isWritable) rfl rfl

/-- The player of a session is told something and the connection goes on, or writing fails and it is
over. -/
structure Tells (c : Connection) (s : Session) (m : Control.Message) (c' : Connection) : Prop where
  inbox : c'.inbox = c.inbox
  isWritable : c'.isWritable = c.isWritable
  written : c.isWritable = true → c'.sent = c.sent ++ [m] ∧ c'.phase = .serving s
  failed : c.isWritable = false → c'.sent = c.sent ∧ c'.phase = .leaving s

theorem tells_write (c : Connection) (s : Session) (m : Control.Message) :
    c.Tells s m (c.write m (.serving s) (.leaving s)) := by
  unfold write
  split
  case isTrue hw => exact ⟨rfl, rfl, fun _ => ⟨rfl, rfl⟩, fun hf => by rw [hw] at hf; cases hf⟩
  case isFalse hw => exact ⟨rfl, rfl, fun hf => absurd hf hw, fun _ => ⟨rfl, rfl⟩⟩

end Connection

namespace Gateway

/-! ## The course of a connection -/

/-- The steps of a connection, each with the gateway that takes it. -/
def course (g : Gateway) (n : Nat) : List Action → List (Gateway × Action)
  | [] => []
  | a :: rest => (if a.connection? = some n then [(g, a)] else []) ++ match g.step? a with
    | some g' => g'.course n rest
    | none => []

/-- The lines that are heard, each with the gateway that hears it. -/
def lines (course : List (Gateway × Action)) : List (Gateway × Control.Message) :=
  course.filterMap fun e => e.2.line?.map fun m => (e.1, m)

/-- What the simulation is told of the player of a connection. -/
def tidings (course : List (Gateway × Action)) : List Event := course.flatMap fun e => e.1.told e.2

variable {g g' : Gateway} {n : Nat} {c c' : Connection} {a : Action} {port : UInt16}
  {course : List (Gateway × Action)} {added : List Event} {sessions : SessionTable}

theorem course_cons {rest : List Action} (h : g.step? a = some g') :
    g.course n (a :: rest) =
      (if a.connection? = some n then [(g, a)] else []) ++ g'.course n rest := by
  rw [Gateway.course, h]

/-- The course of a connection has the steps that are its own. -/
theorem map_course {actions : List Action} (h : g.run? actions = some g') :
    (g.course n actions).map Prod.snd = actions.filter fun a => a.connection? = some n := by
  induction actions generalizing g with
  | nil => rfl
  | cons a rest ih =>
    obtain ⟨g₁, ha, hrest⟩ := run?_cons h
    rw [course_cons ha, List.map_append, ih hrest, List.filter_cons]
    by_cases hn : a.connection? = some n
    · rw [if_pos hn, if_pos (decide_eq_true hn)]
      rfl
    · rw [if_neg hn, if_neg (by rwa [decide_eq_true_eq])]
      rfl

/-- What a connection tells stands in the ledger, in the same order. -/
theorem tidings_sublist {actions : List Action} (h : g.run? actions = some g') :
    (tidings (g.course n actions)).Sublist (g.history actions) := by
  induction actions generalizing g with
  | nil => exact .refl _
  | cons a rest ih =>
    obtain ⟨g₁, ha, hrest⟩ := run?_cons h
    rw [course_cons ha, tidings, List.flatMap_append, history_cons ha]
    refine List.Sublist.append ?_ (ih hrest)
    split
    · rw [List.flatMap_singleton]
    · exact List.nil_sublist _

/-! ### Lines and their answers -/

/-- What a line is answered on a connection. -/
inductive Answered (n : Nat) : Gateway × Control.Message → List Control.Message → Prop
  /-- A player who has no session is admitted. -/
  | admitted {g : Gateway} {username version : String} {s : Session} {sessions : SessionTable}
      {r : Generator} (free : g.holder? n = none)
      (join : g.sessions.join Generator.patience username g.generator = .ok (s, sessions, r)) :
      Answered n (g, .connect username version) [.connectOk s.playerId s.token g.udpPort]
  /-- A player who has no session is turned away. -/
  | refused {g : Gateway} {username version : String} {reason : Control.Refusal}
      (free : g.holder? n = none)
      (join : g.sessions.join Generator.patience username g.generator = .error (.refused reason)) :
      Answered n (g, .connect username version) [.connectError reason]
  /-- A player who has a session gets no other. -/
  | again {g : Gateway} {username version : String} {s : Session} (held : g.holder? n = some s) :
      Answered n (g, .connect username version) [.connectError .alreadyConnected]
  /-- A player goes, with a session or without. -/
  | dismissed {g : Gateway} : Answered n (g, .disconnect) [.disconnectOk]
  /-- Other messages are passed over. -/
  | passed {g : Gateway} {m : Control.Message}
      (ne_connect : ∀ username version, m ≠ .connect username version)
      (ne_disconnect : m ≠ .disconnect) : Answered n (g, m) []

/-- Each line gets its answers, in order, and nothing else is answered. -/
def Gets (n : Nat) (lines : List (Gateway × Control.Message)) (answers : List Control.Message) :
    Prop :=
  ∃ parts, List.Forall₂ (Answered n) lines parts ∧ parts.flatten = answers

theorem Gets.concat {lines : List (Gateway × Control.Message)} {answers part : List Control.Message}
    {line : Gateway × Control.Message} (h : Gets n lines answers) (ha : Answered n line part) :
    Gets n (lines ++ [line]) (answers ++ part) := by
  obtain ⟨parts, hparts, rfl⟩ := h
  refine ⟨parts ++ [part], List.rel_append hparts (.cons ha .nil), ?_⟩
  rw [List.flatten_append, List.flatten_singleton]

/-- Somebody is heard who is owed no answer. -/
theorem Gets.line {m : Control.Message} {part : List Control.Message}
    (h : Gets n (lines course) (c.answers ++ c.due port)) (hdue : c.due port = [])
    (ha : Answered n (g, m) part) (hc' : c'.answers ++ c'.due port = c.answers ++ part) :
    Gets n (lines (course ++ [(g, .hear n m)])) (c'.answers ++ c'.due port) := by
  rw [hdue, List.append_nil] at h
  rw [hc', lines, List.filterMap_append]
  exact h.concat ha

/-- Nobody is heard, and no answer comes or gets lost. -/
theorem Gets.silent (h : Gets n (lines course) (c.answers ++ c.due port)) (ha : a.line? = none)
    (hc' : c'.answers ++ c'.due port = c.answers ++ c.due port) :
    Gets n (lines (course ++ [(g, a)])) (c'.answers ++ c'.due port) := by
  have hlines : lines (course ++ [(g, a)]) = lines course := by
    rw [lines, List.filterMap_append, List.filterMap_cons_none, List.filterMap_nil, List.append_nil]
    · rfl
    · rw [ha, Option.map_none]
  rw [hlines, hc']
  exact h

/-! ### How a connection stands -/

/-- What the simulation and the player have been told in each phase: of a session while there is one,
and of its end afterwards. -/
def Standing (port : UInt16) (c : Connection) (told : List Event) : Prop :=
  match c.phase with
  | .greeting => told = [] ∧ c.welcomes = []
  | .welcoming s => told = [.connected s.playerId s.username] ∧ c.welcomes = []
  | .serving s => told = [.connected s.playerId s.username] ∧
    c.welcomes = [.connectOk s.playerId s.token port]
  | .leaving s => told = [.connected s.playerId s.username]
  | .ended => told = [] ∨ ∃ p username, told = [.connected p username, .disconnected p]

/-- A connection stands where its course has brought it. -/
structure Stands (port : UInt16) (n : Nat) (course : List (Gateway × Action)) (c : Connection) :
    Prop where
  standing : Standing port c (tidings course)
  answered : c.isWritable = true → Gets n (lines course) (c.answers ++ c.due port)
  /-- A connection that can be written to does not end by itself. -/
  farewell : c.isWritable = true → c.IsOver → ∃ e ∈ course, e.2.isFarewell = true
  ends : ∀ e ∈ course, e.2.isFarewell = true → c.IsOver

/-- Nothing has been said on a fresh connection. -/
theorem stands_fresh (ha : a.line? = none) (hf : a.isFarewell = false) (ht : g.told a = []) :
    Stands port n [(g, a)] .fresh := by
  constructor
  case standing =>
    refine ⟨?_, rfl⟩
    rw [tidings, List.flatMap_singleton, ht]
  case answered =>
    intro _
    have hnone : Gets n (lines []) (Connection.fresh.answers ++ Connection.fresh.due port) :=
      ⟨[], .nil, rfl⟩
    exact hnone.silent ha rfl
  case farewell =>
    intro _ ho
    rcases ho with h | ⟨s, h⟩ <;> cases h
  case ends =>
    intro e he h
    rw [List.mem_singleton.mp he, hf] at h
    cases h

/-! ## What a step makes of it -/

/-- Writing that has failed does not succeed again. -/
theorem Turn.isWritable (ht : g.Turn n c a c' added sessions) (h : c'.isWritable = true) :
    c.isWritable = true := by
  cases ht with
  | refused | greeted | again | dismissed | released | relayed =>
    rwa [Connection.isWritable_write] at h
  | admitted | passed | lost | dropped | skipped | departed => exact h
  | cutOff => cases h

/-- And nothing is said any more. -/
theorem Turn.mute (ht : g.Turn n c a c' added sessions) (h : c.isWritable = false) :
    c'.isWritable = false ∧ c'.sent = c.sent := by
  have hwrite : ∀ m next failed, (c.write m next failed).isWritable = false ∧
      (c.write m next failed).sent = c.sent := by
    intro m next failed
    rw [Connection.write, if_neg (by rw [h]; simp)]
    exact ⟨h, rfl⟩
  cases ht with
  | refused | greeted | again | dismissed | released | relayed => exact hwrite _ _ _
  | admitted | passed | lost | dropped | skipped | departed => exact ⟨h, rfl⟩
  | cutOff => exact ⟨rfl, rfl⟩

theorem welcomes_concat (c : Connection) (m : Control.Message) (next : Phase) :
    { c with sent := c.sent ++ [m], phase := next }.welcomes =
      c.welcomes ++ [m].filter Control.Message.isWelcome :=
  List.filter_append _ _

theorem answers_concat (c : Connection) (m : Control.Message) (next : Phase) :
    { c with sent := c.sent ++ [m], phase := next }.answers =
      c.answers ++ [m].filter fun m => !m.isNotice :=
  List.filter_append _ _

theorem IsNews.isNotice {notice : Notice} (h : IsNews notice) :
    notice.message.isNotice = true ∧ notice.message.isWelcome = false := by
  obtain ⟨s, rfl | rfl⟩ := h
  · exact ⟨rfl, rfl⟩
  · exact ⟨rfl, rfl⟩

/-- All that is kept for a connection is news of the others. -/
def KeepsNews (g : Gateway) (n : Nat) : Prop :=
  ∀ {c}, g.connections.get? n = some c → ∀ notice ∈ c.inbox, IsNews notice

theorem Turn.standing (ht : g.Turn n c a c' added sessions) (hport : g.udpPort = port)
    (hnews : g.KeepsNews n) {told : List Event} (h : Standing port c told) :
    Standing port c' (told ++ added) := by
  -- writing may fail, so the phase it then leads to has to stand as well
  have hwrite : ∀ {m next failed told},
      Standing port { c with sent := c.sent ++ [m], phase := next } told →
        Standing port { c with phase := failed } told →
          Standing port (c.write m next failed) told :=
    fun {m next failed told} => Connection.write_elim (Standing port · told)
  -- before the session nothing has been told of it, while it lasts its beginning, then its end
  cases ht with
  | refused hp _ =>
    rw [Standing, hp] at h
    obtain ⟨rfl, hw⟩ := h
    exact hwrite ⟨rfl, by rw [welcomes_concat, hw]; rfl⟩ (.inl rfl)
  | admitted hp _ =>
    rw [Standing, hp] at h
    obtain ⟨rfl, hw⟩ := h
    exact ⟨rfl, hw⟩
  | greeted hp =>
    rw [Standing, hp] at h
    obtain ⟨rfl, hw⟩ := h
    exact hwrite ⟨rfl, by rw [welcomes_concat, hw, hport]; rfl⟩ rfl
  | again hp =>
    rw [Standing, hp] at h
    obtain ⟨rfl, hw⟩ := h
    exact hwrite ⟨rfl, by rw [welcomes_concat, hw]; rfl⟩ rfl
  | dismissed hp =>
    rw [Standing, hp] at h
    obtain ⟨rfl, -⟩ := h
    exact hwrite (.inl rfl) (.inl rfl)
  | released hp =>
    rw [Standing, hp] at h
    obtain ⟨rfl, -⟩ := h
    exact hwrite rfl rfl
  | passed | cutOff | skipped =>
    rw [List.append_nil]
    exact h
  | lost hp =>
    rw [Standing, hp] at h
    obtain ⟨rfl, -⟩ := h
    exact .inl rfl
  | dropped hp =>
    rw [Standing, hp] at h
    obtain ⟨rfl, -⟩ := h
    exact rfl
  | relayed hp here kept =>
    rw [Standing, hp] at h
    obtain ⟨rfl, hw⟩ := h
    -- a notice that is relayed is none of the welcomes that are counted
    have hnot := (hnews here _ kept).isNotice.2
    refine hwrite ⟨rfl, ?_⟩ rfl
    rw [welcomes_concat, hw, List.filter_cons_of_neg (by rw [hnot]; simp)]
    rfl
  | departed hp =>
    rw [Standing, hp] at h
    rw [h]
    exact .inr ⟨_, _, rfl⟩

theorem Turn.answered (ht : g.Turn n c a c' added sessions) (hport : g.udpPort = port)
    (hholder : g.holder? n = c.session?) (hnews : g.KeepsNews n) (hw' : c'.isWritable = true)
    (h : Gets n (lines course) (c.answers ++ c.due port)) :
    Gets n (lines (course ++ [(g, a)])) (c'.answers ++ c'.due port) := by
  have hw := ht.isWritable hw'
  -- in most phases no answer is due
  have hdue : c.phase = .greeting ∨ (∃ s, c.phase = .serving s) ∨ (∃ s, c.phase = .leaving s) →
      c.due port = [] := by
    intro hp
    rcases hp with hp | ⟨s, hp⟩ | ⟨s, hp⟩ <;> rw [Connection.due, hp]
  -- whoever has not been admitted holds no session
  have hfree : c.phase = .greeting → g.holder? n = none := by
    intro hp
    rw [hholder, Connection.session?, hp]
  -- a turn hears a line and answers it, now or as soon as it is due, or it hears none
  cases ht with
  | refused hp hjoin =>
    rw [Connection.write_of_isWritable hw]
    refine h.line (hdue (.inl hp)) (.refused (hfree hp) hjoin) ?_
    rw [answers_concat]
    exact List.append_nil _
  | admitted hp hjoin =>
    refine h.line (hdue (.inl hp)) (.admitted (hfree hp) hjoin) ?_
    rw [hport]
    rfl
  | greeted hp =>
    rw [Connection.write_of_isWritable hw]
    refine h.silent rfl ?_
    rw [answers_concat, hport, Connection.due.eq_def c, hp]
    exact List.append_nil _
  | @again _ _ s hp =>
    rw [Connection.write_of_isWritable hw]
    have hheld : g.holder? n = some s := by
      rw [hholder, Connection.session?, hp]
    refine h.line (hdue (.inr (.inl ⟨_, hp⟩))) (.again hheld) ?_
    rw [answers_concat]
    exact List.append_nil _
  | dismissed hp =>
    rw [Connection.write_of_isWritable hw]
    refine h.line (hdue (.inl hp)) .dismissed ?_
    rw [answers_concat]
    exact List.append_nil _
  | released hp =>
    rw [Connection.write_of_isWritable hw]
    refine h.line (hdue (.inr (.inl ⟨_, hp⟩))) .dismissed ?_
    rw [answers_concat]
    exact List.append_nil _
  | passed hp hconnect hdisconnect =>
    have hnone := hdue (hp.imp_right .inl)
    exact h.line hnone (.passed hconnect hdisconnect) (by rw [hnone])
  | lost hp =>
    refine h.silent rfl ?_
    rw [hdue (.inl hp)]
    rfl
  | dropped hp =>
    refine h.silent rfl ?_
    rw [hdue (.inr (.inl ⟨_, hp⟩))]
    rfl
  | cutOff => cases hw'
  | skipped _ => exact h.silent rfl rfl
  -- a notice is no answer to a line
  | relayed hp here kept =>
    rw [Connection.write_of_isWritable hw]
    refine h.silent rfl ?_
    rw [answers_concat, List.filter_cons_of_neg (by rw [(hnews here _ kept).isNotice.1]; simp),
      hdue (.inr (.inl ⟨_, hp⟩))]
    exact List.append_nil _
  | departed hp =>
    refine h.silent rfl ?_
    rw [hdue (.inr (.inr ⟨_, hp⟩))]
    rfl

/-- What is over stays over. -/
theorem Turn.isOver (ht : g.Turn n c a c' added sessions) (h : c.IsOver) : c'.IsOver := by
  have hne : ∀ {p}, c.phase = p → p ≠ .ended → (∀ s, p ≠ .leaving s) → False := by
    intro p hp hended hleaving
    rcases h with h | ⟨s, h⟩
    · exact hended (hp.symm.trans h)
    · exact hleaving s (hp.symm.trans h)
  cases ht with
  | refused hp | admitted hp | dismissed hp | lost hp | greeted hp
  | again hp | released hp | dropped hp | skipped hp | relayed hp =>
    exact (hne hp (by simp) (by simp)).elim
  | passed _ _ _ => exact h
  | cutOff => exact h
  | departed _ => exact .inl rfl

/-- After a farewell nothing is heard any more. -/
theorem Turn.isOver_of_isFarewell (ht : g.Turn n c a c' added sessions)
    (h : a.isFarewell = true) : c'.IsOver := by
  cases ht with
  | dismissed _ => exact Connection.write_elim Connection.IsOver (.inl rfl) (.inl rfl)
  | released _ => exact Connection.write_elim Connection.IsOver (.inr ⟨_, rfl⟩) (.inr ⟨_, rfl⟩)
  | lost _ => exact .inl rfl
  | @dropped s _ => exact .inr ⟨s, rfl⟩
  | @passed m _ _ hdisconnect =>
    cases m with
    | disconnect => exact absurd rfl hdisconnect
    | connect | connectOk | connectError | disconnectOk | playerJoin | playerLeave => cases h
  | refused | admitted | greeted | again | cutOff | skipped | relayed | departed => cases h

/-- As long as writing succeeds, only a farewell makes an end. -/
theorem Turn.isFarewell (ht : g.Turn n c a c' added sessions) (hw' : c'.isWritable = true)
    (hc : ¬ c.IsOver) (hc' : c'.IsOver) : a.isFarewell = true := by
  have hw := ht.isWritable hw'
  have hgo : ∀ {p}, c'.phase = p → p ≠ .ended → (∀ s, p ≠ .leaving s) → False := by
    intro p hp hended hleaving
    rcases hc' with h | ⟨s, h⟩
    · exact hended (hp.symm.trans h)
    · exact hleaving s (hp.symm.trans h)
  cases ht with
  | refused _ _ | greeted _ | again _ | relayed _ _ _ =>
    refine (hgo (congrArg Connection.phase (Connection.write_of_isWritable hw)) ?_ ?_).elim
    · simp
    · simp
  | admitted _ _ => exact (hgo rfl (by simp) (by simp)).elim
  | dismissed _ | released _ | lost _ | dropped _ => rfl
  | passed _ _ _ | skipped _ => exact absurd hc' hc
  | cutOff => cases hw'
  | departed hp => exact absurd (.inr ⟨_, hp⟩) hc

/-- **A connection stands where its course has brought it**, after each step of its own. -/
theorem Stands.turn (hs : Stands port n course c) (ht : g.Turn n c a c' added sessions)
    (hport : g.udpPort = port) (hholder : g.holder? n = c.session?) (hnews : g.KeepsNews n)
    (htold : g.told a = added) : Stands port n (course ++ [(g, a)]) c' := by
  -- by the four fields: each is kept by any one turn
  constructor
  case standing =>
    rw [tidings, List.flatMap_append, List.flatMap_singleton, htold]
    exact ht.standing hport hnews hs.standing
  case answered =>
    intro hw'
    exact ht.answered hport hholder hnews hw' (hs.answered (ht.isWritable hw'))
  case farewell =>
    intro hw' ho'
    -- either it was over before, or this turn has ended it
    by_cases ho : c.IsOver
    · obtain ⟨e, he, hf⟩ := hs.farewell (ht.isWritable hw') ho
      exact ⟨e, List.mem_append_left _ he, hf⟩
    · exact ⟨(g, a), List.mem_append_right _ List.mem_cons_self, ht.isFarewell hw' ho ho'⟩
  case ends =>
    intro e he hf
    rcases List.mem_append.mp he with he | he
    · exact ht.isOver (hs.ends e he hf)
    · obtain rfl := List.mem_singleton.mp he
      exact ht.isOver_of_isFarewell hf

end Gateway

end Skirmish

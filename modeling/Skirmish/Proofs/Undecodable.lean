import Skirmish.Proofs.Datagrams
/-!
# Datagrams that are refused halfway

A datagram is looked at twice. Its header tells whose it is, and the endpoint of that session is noted
and told to the simulation; only then is the rest read. So a datagram that turns out to be none at the
second look has had an effect already, unless it came from where the session's latest datagram came
from (`ComesFromOwnEndpoint`). This is the only effect that it has (`undecodable_onlyCounts_iff`).
-/

namespace Skirmish.Gateway

open Wire

variable {g g' : Gateway} {source : Endpoint} {datagram : List UInt8} {e : Wire.Error} {s : Session}

/-- A datagram does nothing but count. -/
def OnlyCounts (g : Gateway) (source : Endpoint) (datagram : List UInt8) : Prop :=
  ∃ t, g.step? (.receive source datagram) = some { g with counters := g.counters.enter t }

/-- If a datagram has a valid header with the token of a session, then it comes from the endpoint of
that session. -/
def ComesFromOwnEndpoint (g : Gateway) (source : Endpoint) (datagram : List UInt8) : Prop :=
  ∀ header body s, Header.validate datagram = .ok (header, body) →
    g.sessions.get? header.token = some s → s.endpoint = some source

/-- The simulation is told of the endpoint of a session for the first time, or of another one. -/
def endpointEvent (s : Session) (source : Endpoint) : Event :=
  match s.endpoint with
  | none => .udpReady s.playerId source
  | some _ => .endpointChanged s.playerId source

theorem endpointEvents_of_eq (h : s.endpoint = some source) :
    endpointEvents s.playerId source (SessionTable.updateOf s source) = [] := by
  rw [SessionTable.updateOf, h]
  simp [endpointEvents]

theorem endpointEvents_of_ne (h : s.endpoint ≠ some source) :
    endpointEvents s.playerId source (SessionTable.updateOf s source) =
      [endpointEvent s source] := by
  unfold SessionTable.updateOf endpointEvent
  cases hs : s.endpoint with
  | none => rfl
  | some previous =>
    have hne : previous ≠ source := fun heq => h (heq ▸ hs)
    simp only [if_neg hne]
    rfl

/-- The gateway after a datagram that is not a packet. The payload is not looked at before the endpoint
is noted, so it decides nothing but the counter. -/
theorem step?_of_undecodable (h : Packet.decode datagram = .error e) (g : Gateway)
    (source : Endpoint) :
    g.step? (.receive source datagram) =
      match Header.validate datagram with
      | .error _ => some { g with counters := g.counters.enter .malformed }
      | .ok (header, _) =>
        match g.sessions.get? header.token with
        | none => some { g with counters := g.counters.enter .unauthenticated }
        | some s =>
          (g.queue.sendAll?
            (endpointEvents s.playerId source (SessionTable.updateOf s source))).map fun queue =>
              { g with
                sessions := { g.sessions with
                  byToken := g.sessions.byToken.modify header.token fun s =>
                    { s with endpoint := some source } }
                queue
                counters := g.counters.enter .malformed } := by
  show g.receive? source datagram = _
  -- in the order of the gateway: the header, the token, the news, and only then the payload
  unfold receive?
  rw [Packet.authenticate?_take]
  unfold authenticate?
  cases Header.validate datagram with
  | error _ => rfl
  | ok r =>
    have hsessions : (g.count fun c => { c with datagramsIn := c.datagramsIn + 1 }).sessions =
        g.sessions := rfl
    simp only [hsessions, SessionTable.touch]
    cases g.sessions.get? r.1.token with
    | none => rfl
    | some s =>
      simp only [Option.map_some, serve, h]
      rfl

/-- Under the token of a session it is the header that counts. -/
theorem step?_of_known (h : Packet.decode datagram = .error e) {header : Header} {body : List UInt8}
    (hvalid : Header.validate datagram = .ok (header, body))
    (hs : g.sessions.get? header.token = some s) (source : Endpoint) :
    g.step? (.receive source datagram) =
      (g.queue.sendAll?
        (endpointEvents s.playerId source (SessionTable.updateOf s source))).map fun queue =>
          { g with
            sessions := { g.sessions with
              byToken := g.sessions.byToken.modify header.token fun s =>
                { s with endpoint := some source } }
            queue
            counters := g.counters.enter .malformed } := by
  rw [step?_of_undecodable h, hvalid]
  simp only [hs]

/-- From where the session's latest datagram came from, nothing happens. -/
theorem onlyCounts_of_comesFromOwnEndpoint (h : Packet.decode datagram = .error e)
    (hown : g.ComesFromOwnEndpoint source datagram) : g.OnlyCounts source datagram := by
  cases hvalid : Header.validate datagram with
  | error _ => exact ⟨.malformed, by rw [step?_of_undecodable h, hvalid]⟩
  | ok r =>
    obtain ⟨header, body⟩ := r
    cases hs : g.sessions.get? header.token with
    | none => exact ⟨.unauthenticated, by rw [step?_of_undecodable h, hvalid]; simp only [hs]⟩
    | some s =>
      have hsame := hown header body s hvalid hs
      refine ⟨.malformed, ?_⟩
      rw [step?_of_known h hvalid hs, endpointEvents_of_eq hsame, EventQueue.sendAll?,
        Option.map_some, SortedMap.modify_eq_self]
      intro s' hs'
      obtain rfl := Option.some.inj (hs.symm.trans hs')
      rw [← hsame]

/-- From anywhere else, the session has another endpoint afterwards, and the simulation is told. -/
theorem moved_of_known (h : Packet.decode datagram = .error e) {header : Header} {body : List UInt8}
    (hvalid : Header.validate datagram = .ok (header, body))
    (hs : g.sessions.get? header.token = some s) (hne : s.endpoint ≠ some source)
    (hstep : g.step? (.receive source datagram) = some g') :
    g.queue.send? (endpointEvent s source) = some g'.queue ∧
      ∀ k, g'.sessions.get? k =
        if header.token = k then some { s with endpoint := some source }
        else g.sessions.get? k := by
  rw [step?_of_known h hvalid hs, endpointEvents_of_ne hne] at hstep
  obtain ⟨queue, hall, rfl⟩ := Option.map_eq_some_iff.mp hstep
  obtain ⟨queue', hsend, heq⟩ := Option.bind_eq_some_iff.mp hall
  obtain rfl := Option.some.inj heq
  refine ⟨hsend, fun k => (SortedMap.get?_modify _ _ _ _).trans ?_⟩
  split
  · rename_i hk
    subst hk
    exact congrArg (Option.map fun s => { s with endpoint := some source }) hs
  · rfl

/-- **What a datagram does that is not a packet.** It does nothing but count exactly if it does not
bear the token of a session, in a valid header, or comes from the endpoint of that session. Otherwise
that session has another endpoint afterwards, and the simulation is told of it, or the datagram waits
until it can be told. Connections and replies are left alone in any case. -/
theorem undecodable_onlyCounts_iff (h : Packet.decode datagram = .error e) (g : Gateway)
    (source : Endpoint) :
    (g.OnlyCounts source datagram ↔ g.ComesFromOwnEndpoint source datagram) ∧
    (∀ g', g.step? (.receive source datagram) = some g' →
      g'.connections = g.connections ∧ g'.replies = g.replies ∧
        ∃ t, (t = .malformed ∨ t = .unauthenticated) ∧ g'.counters = g.counters.enter t) ∧
    ∀ header body s, Header.validate datagram = .ok (header, body) →
      g.sessions.get? header.token = some s → s.endpoint ≠ some source →
        ∀ g', g.step? (.receive source datagram) = some g' →
          g.queue.send? (endpointEvent s source) = some g'.queue ∧
          ∀ k, g'.sessions.get? k =
            if header.token = k then some { s with endpoint := some source }
            else g.sessions.get? k := by
  refine ⟨⟨fun honlyCounts => ?_, onlyCounts_of_comesFromOwnEndpoint h⟩, fun g' hstep => ?_,
    fun header body s hvalid hs hne g' => moved_of_known h hvalid hs hne⟩
  · intro header body s hvalid hs
    obtain ⟨t, hstep⟩ := honlyCounts
    by_contra hne
    -- the session would have the new endpoint, and it is as it was
    have hget := (moved_of_known h hvalid hs hne hstep).2 header.token
    have hsame : g.sessions.get? header.token = some { s with endpoint := some source } := by
      simpa using hget
    rw [hs, Option.some.injEq] at hsame
    exact hne (congrArg Session.endpoint hsame)
  · -- whatever way it goes, it counts at most as malformed, and nobody is answered
    rw [step?_of_undecodable h] at hstep
    split at hstep
    · obtain rfl := Option.some.inj hstep
      exact ⟨rfl, rfl, .malformed, .inl rfl, rfl⟩
    · split at hstep
      · obtain rfl := Option.some.inj hstep
        exact ⟨rfl, rfl, .unauthenticated, .inr rfl, rfl⟩
      · obtain ⟨queue, -, rfl⟩ := Option.map_eq_some_iff.mp hstep
        exact ⟨rfl, rfl, .malformed, .inl rfl, rfl⟩

/-- A header with the token of a player, and a kind that there is not. -/
def unknownKind : List UInt8 := [0xcd, 0xab, 1, 0, 0x99, 7, 0, 0, 0]

/-- A player is admitted. -/
def onePlayer : List Action := [.accept 0, .hear 0 (.connect "ace" "1"), .greet 0]

/-- What the player sends from one place is no packet. It does nothing but count when it comes from
where a ping has come from before, and not when it comes from elsewhere. -/
theorem undecodable_onlyCounts_iff_after_ping : ∃ g,
    (start 4 64 4243 (.cycle [7])).run?
      (onePlayer ++ [.receive ⟨.v4 (.replicate 4 10), 7001⟩ (sent 7 .ping)]) = some g ∧
    Packet.decode unknownKind = .error (.unknownType 0x99) ∧
    g.OnlyCounts ⟨.v4 (.replicate 4 10), 7001⟩ unknownKind ∧
    ¬ g.OnlyCounts ⟨.v4 (.replicate 4 10), 7002⟩ unknownKind := by
  obtain ⟨g, hg⟩ := Option.isSome_iff_exists.mp (show ((start 4 64 4243 (.cycle [7])).run?
    (onePlayer ++ [.receive ⟨.v4 (.replicate 4 10), 7001⟩ (sent 7 .ping)])).isSome by decide +kernel)
  have hread : Packet.decode unknownKind = .error (.unknownType 0x99) := by decide +kernel
  have hvalid : Header.validate unknownKind = .ok (⟨magic, version, 0, 0x99, 7⟩, []) := by
    decide +kernel
  have hmine : ((start 4 64 4243 (.cycle [7])).run?
      (onePlayer ++ [.receive ⟨.v4 (.replicate 4 10), 7001⟩ (sent 7 .ping)])).bind
        (fun g => g.sessions.get? 7) = some ⟨1, 7, "ace", some ⟨.v4 (.replicate 4 10), 7001⟩⟩ := by
    decide +kernel
  rw [hg, Option.bind_some] at hmine
  obtain ⟨hhere, -⟩ := undecodable_onlyCounts_iff hread g ⟨.v4 (.replicate 4 10), 7001⟩
  obtain ⟨hthere, -⟩ := undecodable_onlyCounts_iff hread g ⟨.v4 (.replicate 4 10), 7002⟩
  refine ⟨g, hg, hread, hhere.mpr fun header body s hvalid' hs => ?_, fun honlyCounts => ?_⟩
  · -- the session has this endpoint already, which is what the equivalence asks for
    cases hvalid.symm.trans hvalid'
    obtain rfl := Option.some.inj (hmine.symm.trans hs)
    rfl
  · have hsame := hthere.mp honlyCounts _ _ _ hvalid hmine
    exact absurd hsame (by decide)

/-- The first datagram under a token is no packet, and all the same it tells of the endpoint. -/
theorem undecodable_tells_of_endpoint : ∃ g g',
    (start 4 64 4243 (.cycle [7])).run? onePlayer = some g ∧
    Packet.decode unknownKind = .error (.unknownType 0x99) ∧
    g.step? (.receive ⟨.v4 (.replicate 4 10), 7001⟩ unknownKind) = some g' ∧
    g.sessions.get? 7 = some ⟨1, 7, "ace", none⟩ ∧
    g'.sessions.get? 7 = some ⟨1, 7, "ace", some ⟨.v4 (.replicate 4 10), 7001⟩⟩ ∧
    g.queue.events = [.connected 1 "ace"] ∧
    g'.queue.events = [.connected 1 "ace", .udpReady 1 ⟨.v4 (.replicate 4 10), 7001⟩] ∧
    ¬ g.OnlyCounts ⟨.v4 (.replicate 4 10), 7001⟩ unknownKind := by
  obtain ⟨g, hg⟩ := Option.isSome_iff_exists.mp (show
    ((start 4 64 4243 (.cycle [7])).run? onePlayer).isSome by decide +kernel)
  have hread : Packet.decode unknownKind = .error (.unknownType 0x99) := by decide +kernel
  have hbefore : ((start 4 64 4243 (.cycle [7])).run? onePlayer).map
      (fun g => (g.sessions.get? 7, g.queue.events)) =
        some (some ⟨1, 7, "ace", none⟩, [.connected 1 "ace"]) := by
    decide +kernel
  have hafter : (((start 4 64 4243 (.cycle [7])).run? onePlayer).bind fun g =>
      (g.step? (.receive ⟨.v4 (.replicate 4 10), 7001⟩ unknownKind)).map
        fun g => (g.sessions.get? 7, g.queue.events)) =
      some (some ⟨1, 7, "ace", some ⟨.v4 (.replicate 4 10), 7001⟩⟩,
        [.connected 1 "ace", .udpReady 1 ⟨.v4 (.replicate 4 10), 7001⟩]) := by
    decide +kernel
  -- the session has an endpoint afterwards and had none before, and this is in the queue
  rw [hg, Option.map_some, Option.some.injEq, Prod.mk.injEq] at hbefore
  rw [hg, Option.bind_some] at hafter
  obtain ⟨g', hstep, hg'⟩ := Option.map_eq_some_iff.mp hafter
  obtain ⟨hsession', hevents'⟩ := Prod.mk.inj hg'
  refine ⟨g, g', hg, hread, hstep, hbefore.1, hsession', hbefore.2, hevents', fun honlyCounts => ?_⟩
  -- a datagram that does nothing but count leaves the session without an endpoint
  obtain ⟨t, hcount⟩ := honlyCounts
  obtain rfl := Option.some.inj (hcount.symm.trans hstep)
  have hsame : g.sessions.get? 7 = some ⟨1, 7, "ace", some ⟨.v4 (.replicate 4 10), 7001⟩⟩ := hsession'
  rw [hbefore.1] at hsame
  cases hsame

end Skirmish.Gateway

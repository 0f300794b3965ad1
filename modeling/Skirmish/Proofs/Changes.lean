import Mathlib.Data.List.Dedup
import Skirmish.Proofs.Bookkeeping
/-!
# What becomes of the sessions is told

Two session tables, one before and one after, show what there is to tell of the sessions: who has
come, who has gone, and whose endpoint is known now or has changed (`SessionTable.changesTo`). The
simulation is told exactly this, at each step (`Orderly.told_changes`) and in each run
(`Orderly.history_changes`), no matter how full the queue is. Whatever else it is told are inputs.
-/

namespace Skirmish

def Event.isInput : Event → Bool
  | input _ _ => true
  | _ => false

namespace SessionTable

/-- What there is to tell of a token whose session was this and is that now. -/
def change? : Option Session → Option Session → Option Event
  | none, none => none
  | none, some s => some (.connected s.playerId s.username)
  | some s, none => some (.disconnected s.playerId)
  | some s, some s' =>
    match s.endpoint, s'.endpoint with
    | none, some e => some (.udpReady s'.playerId e)
    | some e, some e' => if e = e' then none else some (.endpointChanged s'.playerId e')
    | _, none => none

/-- What there is to tell when one table becomes another. -/
def changesTo (t t' : SessionTable) : List Event :=
  (t.byToken.keys ++ t'.byToken.keys).dedup.filterMap fun k => change? (t.get? k) (t'.get? k)

theorem change?_self (o : Option Session) : change? o o = none := by
  cases o with
  | none => rfl
  | some s =>
    obtain ⟨id, token, username, endpoint⟩ := s
    cases endpoint with
    | none => rfl
    | some e => exact if_pos rfl

/-- A datagram from an endpoint changes a session by what is told of it. -/
theorem toList_change?_touched (s : Session) (source : Endpoint) :
    (change? (some s) (some { s with endpoint := some source })).toList =
      Gateway.endpointEvents s.playerId source (updateOf s source) := by
  obtain ⟨id, token, username, endpoint⟩ := s
  cases endpoint with
  | none => rfl
  | some previous =>
    show (if previous = source then none else some _).toList =
      Gateway.endpointEvents _ _ (if previous = source then .unchanged else .moved)
    split
    · rfl
    · rfl

/-- Something happens for one element at most. -/
theorem filterMap_of_nodup {α β : Type} [DecidableEq α] {f : α → Option β} {a : α} {xs : List α}
    (hxs : xs.Nodup) (hf : ∀ x, x ≠ a → f x = none) :
    xs.filterMap f = if a ∈ xs then (f a).toList else [] := by
  induction xs with
  | nil => rfl
  | cons x rest ih =>
    obtain ⟨hx, hrest⟩ := List.nodup_cons.mp hxs
    by_cases hxa : x = a
    · subst hxa
      have hnone : rest.filterMap f = [] := by
        rw [ih hrest, if_neg hx]
      rw [if_pos List.mem_cons_self, List.filterMap_cons, hnone]
      cases f x <;> rfl
    · rw [List.filterMap_cons_none (hf x hxa), ih hrest]
      simp only [List.mem_cons, Ne.symm hxa, false_or]

/-- If the tables agree but for one token, there is no more to tell than of this token. -/
theorem changesTo_eq {t t' : SessionTable} (token : UInt32)
    (hoff : ∀ k, k ≠ token → t'.get? k = t.get? k) :
    t.changesTo t' = (change? (t.get? token) (t'.get? token)).toList := by
  have hf : ∀ k, k ≠ token → change? (t.get? k) (t'.get? k) = none := by
    intro k hk
    rw [hoff k hk, change?_self]
  rw [changesTo, filterMap_of_nodup (List.nodup_dedup _) hf]
  split
  · rfl
  · rename_i hmem
    rw [List.mem_dedup, List.mem_append, SortedMap.mem_keys_iff, SortedMap.mem_keys_iff, not_or,
      Bool.not_eq_true, Option.isSome_eq_false_iff, Option.isNone_iff_eq_none, Bool.not_eq_true,
      Option.isSome_eq_false_iff, Option.isNone_iff_eq_none] at hmem
    rw [get?, get?, hmem.1, hmem.2]
    rfl

theorem changesTo_self (t : SessionTable) : t.changesTo t = [] := by
  rw [changesTo_eq 0 fun _ _ => rfl, change?_self]
  rfl

end SessionTable

namespace Gateway

open SessionTable

variable {g g' : Gateway} {a : Action} {told : List Event}

/-- What becomes of the sessions in several steps, in order. -/
def changes (g : Gateway) : List Action → List Event
  | [] => []
  | a :: rest => match g.step? a with
    | some g' => g.sessions.changesTo g'.sessions ++ g'.changes rest
    | none => []

theorem changes_cons {rest : List Action} (h : g.step? a = some g') :
    g.changes (a :: rest) = g.sessions.changesTo g'.sessions ++ g'.changes rest := by
  rw [changes, h]

theorem filter_endpointEvents (p : UInt8) (source : Endpoint) (u : EndpointUpdate) :
    (endpointEvents p source u).filter (fun e => !e.isInput) = endpointEvents p source u := by
  cases u <;> rfl

/-- Everything that there is to tell is an input or a change of the sessions. -/
theorem Tidy.changesTo_of_change (hg : g.Tidy) (hc : g.Change a told g') :
    told.filter (fun e => !e.isInput) = g.sessions.changesTo g'.sessions := by
  -- by the ways a table can change: each touches one token at most, so the change is read off there
  cases hc with
  | still sessions _ =>
    rw [sessions, changesTo_self]
    rfl
  | @opened n _ _ new _ fresh _ _ sessions _ =>
    have hget := get?_opened sessions
    rw [changesTo_eq new.token fun k hk => by rw [hget, if_neg (Ne.symm hk)], fresh, hget,
      if_pos rfl]
    rfl
  | @closed n old _ held sessions _ =>
    have hget := get?_closed sessions
    obtain ⟨s, hs, hid⟩ := hg.held held
    rw [changesTo_eq old.token fun k hk => by rw [hget, if_neg (Ne.symm hk)], hs, hget, if_pos rfl,
      ← hid]
    rfl
  | @touched source _ _ header mine inputs _ _ hmine sessions _ inputs_only =>
    have hget := get?_touched sessions
    have hinputs : inputs.filter (fun e => !e.isInput) = [] := by
      rw [List.filter_eq_nil_iff]
      intro e he
      obtain ⟨i, rfl⟩ := inputs_only e he
      simp [Event.isInput]
    rw [changesTo_eq header.token fun k hk => by rw [hget, if_neg (Ne.symm hk)], hget, if_pos rfl,
      hmine, Option.map_some, toList_change?_touched, List.filter_append, hinputs,
      filter_endpointEvents, List.append_nil]

/-- **A step tells of all that becomes of the sessions**, and of nothing else but inputs. -/
theorem Orderly.told_changes (hg : g.Orderly) (ha : a ≠ .shutDown) (h : g.step? a = some g') :
    (g.told a).filter (fun e => !e.isInput) = g.sessions.changesTo g'.sessions :=
  hg.changesTo_of_change (hg.advances ha h).change

theorem Orderly.history_changes {actions : List Action} (hg : g.Orderly)
    (hopen : .shutDown ∉ actions) (h : g.run? actions = some g') :
    (g.history actions).filter (fun e => !e.isInput) = g.changes actions := by
  induction actions generalizing g with
  | nil => rfl
  | cons a rest ih =>
    obtain ⟨g₁, ha, hrest⟩ := run?_cons h
    rw [List.mem_cons, not_or] at hopen
    rw [history_cons ha, changes_cons ha, List.filter_append, hg.told_changes (Ne.symm hopen.1) ha,
      ih (hg.step (Ne.symm hopen.1) ha) hopen.2 hrest]

end Gateway

end Skirmish

import Mathlib.Data.List.Induction
import Skirmish.Proofs.Hearing
/-!
# A replica is what has been said

What a replica holds can be read off the messages that have come (`Replica.Reflects`), and there is no
other replica of which the same is true. An entity is there if it has been announced and its end has not
been announced since (`Announced`). It is who the last announcement says. Since then every update says
where it is and where it is going, and every entry of a batch where it is; the last word counts.

The step lemma is `Replica.Reflects.apply`. A message that neither announces an entity nor its end can
only change what is told of it (`get?_apply`, `Sighting.hear`), and other entities' messages do not even
do that.
-/

namespace Skirmish

open Wire

/-! ## What a message says -/

namespace Wire.Payload

/-- The entity that is announced. -/
def spawned? : Payload → Option UInt32
  | .spawn s => some s.networkId
  | _ => none

def isBatch : Payload → Bool
  | .batch _ => true
  | _ => false

def entries : Payload → List Entry
  | .batch b => b.entries
  | _ => []

/-- Where the entity is going. -/
def velocity? (n : UInt32) : Payload → Option Vector2
  | .spawn s => if s.networkId = n then some s.velocity else none
  | .update u => if u.networkId = n then some u.velocity else none
  | _ => none

/-- Where the entity is and how well, as often as the message says so. -/
def reports (n : UInt32) : Payload → List (Vector2 × UInt8)
  | .spawn s => if s.networkId = n then [(s.position, s.health)] else []
  | .update u => if u.networkId = n then [(u.position, u.health)] else []
  | .batch b => (b.entries.filter fun x => x.networkId = n).map fun x => (x.position, x.health)
  | _ => []

theorem spawned?_eq_some_iff {p : Payload} {n : UInt32} :
    p.spawned? = some n ↔ ∃ s, p = .spawn s ∧ s.networkId = n := by
  cases p <;> simp [spawned?]

end Wire.Payload

/-! ## What has been said -/

/-- The entity has been announced, and its end has not been announced since. -/
def Announced (n : UInt32) (said : List Payload) : Prop :=
  ∃ earlier s since, said = earlier ++ .spawn s :: since ∧ s.networkId = n ∧
    Payload.destroy n ∉ since

/-- The last announcement of an entity, and what has been said since. -/
structure LastSpawn (n : UInt32) (said : List Payload) (s : Spawn) (since : List Payload) : Prop where
  split : ∃ earlier, said = earlier ++ .spawn s :: since
  id_eq : s.networkId = n
  last : ∀ p ∈ since, p.spawned? ≠ some n

section

variable {n : UInt32} {p : Payload} {s s' : Spawn} {said rest since since' : List Payload}

theorem not_announced_nil : ¬ Announced n [] := by
  intro h
  obtain ⟨earlier, s, since, heq, -⟩ := h
  cases earlier <;> cases heq

theorem announced_cons : Announced n (p :: rest) ↔
    (p.spawned? = some n ∧ Payload.destroy n ∉ rest) ∨ Announced n rest := by
  constructor
  · intro h
    obtain ⟨earlier, s, since, heq, hid, hsince⟩ := h
    cases earlier with
    | nil =>
      obtain ⟨rfl, rfl⟩ := List.cons.inj heq
      exact .inl ⟨congrArg some hid, hsince⟩
    | cons q earlier =>
      obtain ⟨rfl, rfl⟩ := List.cons.inj heq
      exact .inr ⟨earlier, s, since, rfl, hid, hsince⟩
  · intro h
    rcases h with ⟨hp, hrest⟩ | ⟨earlier, s, since, rfl, hid, hsince⟩
    · obtain ⟨s, rfl, hid⟩ := Payload.spawned?_eq_some_iff.mp hp
      exact ⟨[], s, rest, rfl, hid, hrest⟩
    · exact ⟨p :: earlier, s, since, rfl, hid, hsince⟩

theorem announced_append : Announced n (said ++ rest) ↔
    (Announced n said ∧ Payload.destroy n ∉ rest) ∨ Announced n rest := by
  induction said with
  | nil => simp [not_announced_nil]
  | cons p said ih =>
    rw [List.cons_append, announced_cons, ih, announced_cons, List.mem_append]
    tauto

theorem announced_concat : Announced n (said ++ [p]) ↔
    (Announced n said ∧ p ≠ .destroy n) ∨ p.spawned? = some n := by
  rw [announced_append, announced_cons]
  simp [not_announced_nil, eq_comm]

instance Announced.decidable (n : UInt32) : ∀ said, Decidable (Announced n said)
  | [] => isFalse not_announced_nil
  | _ :: rest =>
    have := Announced.decidable n rest
    decidable_of_iff _ announced_cons.symm

theorem lastSpawn_concat (s : Spawn) : LastSpawn s.networkId (said ++ [.spawn s]) s [] where
  split := ⟨said, rfl⟩
  id_eq := rfl
  last := by simp

theorem LastSpawn.concat (h : LastSpawn n said s since) (hp : p.spawned? ≠ some n) :
    LastSpawn n (said ++ [p]) s (since ++ [p]) where
  split := by
    obtain ⟨earlier, rfl⟩ := h.split
    exact ⟨earlier, by simp⟩
  id_eq := h.id_eq
  last := by
    intro q hq
    rcases List.mem_append.mp hq with hq | hq
    · exact h.last q hq
    · obtain rfl := List.mem_singleton.mp hq
      exact hp

/-- No announcement of the entity comes after its last one. -/
theorem spawn_eq_of_last {between : List Payload} (hlast : ∀ p ∈ since, p.spawned? ≠ some n)
    (hid : s'.networkId = n) (h : Payload.spawn s :: since = between ++ .spawn s' :: since') :
    s' = s ∧ since' = since := by
  cases between with
  | nil =>
    obtain ⟨hs, rfl⟩ := List.cons.inj h
    exact ⟨(Payload.spawn.inj hs).symm, rfl⟩
  | cons q between =>
    obtain ⟨-, rfl⟩ := List.cons.inj h
    exact absurd (congrArg some hid) (hlast (.spawn s') (by simp))

theorem LastSpawn.unique (h : LastSpawn n said s since) (h' : LastSpawn n said s' since') :
    s' = s ∧ since' = since := by
  obtain ⟨earlier, rfl⟩ := h.split
  obtain ⟨earlier', heq⟩ := h'.split
  -- one of the two is not before the other
  rcases List.append_eq_append_iff.mp heq with ⟨between, -, hrest⟩ | ⟨between, -, hrest⟩
  · exact spawn_eq_of_last h.last h'.id_eq hrest
  · obtain ⟨rfl, rfl⟩ := spawn_eq_of_last h'.last h.id_eq hrest
    exact ⟨rfl, rfl⟩

end

/-- The entries of batches about entities that were not announced when they came. -/
def strays (said : List Payload) : List Entry :=
  said.zipIdx.flatMap fun (p, i) =>
    p.entries.filter fun x => ¬ Announced x.networkId (said.take i)

theorem strays_concat (said : List Payload) (p : Payload) : strays (said ++ [p]) =
    strays said ++ p.entries.filter fun x => ¬ Announced x.networkId said := by
  have hbefore : ∀ q ∈ said.zipIdx, (said ++ [p]).take q.2 = said.take q.2 := by
    intro q hq
    have hlt := (List.mem_zipIdx hq).2.1
    exact List.take_append_of_le_length (by omega)
  rw [strays, List.zipIdx_append, List.flatMap_append]
  congr 1
  · rw [strays, List.flatMap_def, List.flatMap_def]
    refine congrArg List.flatten (List.map_congr_left fun (q, i) hq => ?_)
    have hi : (said ++ [p]).take i = said.take i := hbefore (q, i) hq
    simp only [hi]
  · simp

/-- One entry is about an entity that is never announced, another comes after the end. -/
example : strays [.spawn ⟨7, .enemy, 0xff, default, default, 50, ""⟩,
    .batch ⟨[⟨7, default, 50⟩, ⟨8, default, 100⟩], by decide⟩,
    .destroy 7, .batch ⟨[⟨7, default, 25⟩], by decide⟩] =
    [⟨8, default, 100⟩, ⟨7, default, 25⟩] := by decide +kernel

/-! ## One entity -/

namespace Sighting

/-- An entity is reported where it is and how well. -/
def placed (e : Sighting) (report : Vector2 × UInt8) : Sighting :=
  { e with position := report.1, health := report.2 }

/-- What becomes of an entity that has this id, when a message comes that announces neither it nor its
end. -/
def hear (n : UInt32) (p : Payload) (e : Sighting) : Sighting :=
  (p.reports n).foldl placed { e with velocity := (p.velocity? n).getD e.velocity }

/-- A message that says nothing of an entity. -/
theorem hear_of_silent {n : UInt32} {p : Payload} (hv : p.velocity? n = none)
    (hr : p.reports n = []) : hear n p = id := by
  funext e
  rw [hear, hv, hr]
  rfl

/-- An entity is seen as it has been announced and as the messages since tell of it. -/
structure Told (e : Sighting) (s : Spawn) (since : List Payload) : Prop where
  networkId : e.networkId = s.networkId
  kind : e.kind = s.kind
  owner : e.owner = s.owner
  username : e.username = s.username
  velocity : ((.spawn s :: since).filterMap (Payload.velocity? s.networkId)).getLast? =
    some e.velocity
  report : ((.spawn s :: since).flatMap (Payload.reports s.networkId)).getLast? =
    some (e.position, e.health)

/-- Reports say where an entity is and how well, and the last one counts. -/
theorem foldl_placed (reports : List (Vector2 × UInt8)) (e : Sighting) :
    reports.foldl placed e = e.placed (reports.getLast?.getD (e.position, e.health)) := by
  induction reports generalizing e with
  | nil => rfl
  | cons r rest ih =>
    rw [List.foldl_cons, ih, List.getLast?_cons]
    rfl

theorem told_spawn (s : Spawn) : (Replica.sighting s).Told s [] where
  networkId := rfl
  kind := rfl
  owner := rfl
  username := rfl
  velocity := by simp [Payload.velocity?, Replica.sighting]
  report := by simp [Payload.reports, Replica.sighting]

theorem Told.hear {e : Sighting} {s : Spawn} {since : List Payload} (h : e.Told s since)
    (p : Payload) : (e.hear s.networkId p).Told s (since ++ [p]) := by
  unfold Sighting.hear
  rw [foldl_placed]
  exact {
    networkId := h.networkId
    kind := h.kind
    owner := h.owner
    username := h.username
    velocity := by
      rw [← List.cons_append, List.filterMap_append, List.getLast?_append, h.velocity]
      cases hv : p.velocity? s.networkId <;> simp [hv, placed]
    report := by
      rw [← List.cons_append, List.flatMap_append, List.getLast?_append, h.report]
      cases hr : (p.reports s.networkId).getLast? <;> simp [hr, placed] }

theorem Told.unique {e e' : Sighting} {s : Spawn} {since : List Payload} (h : e.Told s since)
    (h' : e'.Told s since) : e' = e := by
  have hvelocity : e'.velocity = e.velocity := Option.some.inj (h'.velocity.symm.trans h.velocity)
  have hreport := Option.some.inj (h'.report.symm.trans h.report)
  obtain ⟨hposition, hhealth⟩ := Prod.mk.inj hreport
  show (⟨e'.networkId, e'.kind, e'.owner, e'.position, e'.velocity, e'.health, e'.username⟩ :
    Sighting) = ⟨e.networkId, e.kind, e.owner, e.position, e.velocity, e.health, e.username⟩
  rw [h'.networkId, h'.kind, h'.owner, hposition, hvelocity, hhealth, h'.username, h.networkId,
    h.kind, h.owner, h.username]

end Sighting

/-! ## Replicas -/

namespace Replica

variable {m : Replica} {n : UInt32} {p : Payload}

/-- What becomes of a new replica. -/
def replay (said : List Payload) : Replica := said.foldl apply empty

theorem replay_concat (said : List Payload) (p : Payload) :
    replay (said ++ [p]) = (replay said).apply p := by
  rw [replay, List.foldl_append]
  rfl

/-- Entries report one after the other. -/
theorem get?_foldl_applyEntry (entries : List Entry) (m : Replica) (n : UInt32) :
    (entries.foldl applyEntry m).get? n = (m.get? n).map fun e =>
      ((entries.filter fun x => x.networkId = n).map fun x => (x.position, x.health)).foldl
        Sighting.placed e := by
  induction entries generalizing m with
  | nil => exact Option.map_id'.symm
  | cons x rest ih =>
    rw [List.foldl_cons, ih, get?_applyEntry, List.filter_cons]
    by_cases hid : x.networkId = n
    · rw [if_pos hid, if_pos (decide_eq_true hid), Option.map_map]
      rfl
    · rw [if_neg hid, if_neg (by simpa using hid)]

/-- A message that announces neither an entity nor its end changes what is told of it. -/
theorem get?_apply (hspawn : p.spawned? ≠ some n) (hdestroy : p ≠ .destroy n) (m : Replica) :
    (m.apply p).get? n = (m.get? n).map (Sighting.hear n p) := by
  -- by what is heard: news of others is silence, and news of the entity is what `hear` does with it
  cases p with
  | spawn s =>
    have hid : s.networkId ≠ n := fun h => hspawn (congrArg some h)
    have hsilent : Sighting.hear n (.spawn s) = id :=
      Sighting.hear_of_silent (if_neg hid) (if_neg hid)
    rw [hsilent, Option.map_id]
    exact (get?_applySpawn m s n).trans (if_neg hid)
  | update u =>
    refine (SortedMap.get?_modify m.entities u.networkId n _).trans ?_
    by_cases hid : u.networkId = n
    · have hhear : Sighting.hear n (.update u) = fun e =>
          { e with position := u.position, velocity := u.velocity, health := u.health } := by
        funext e
        rw [Sighting.hear, Payload.reports, Payload.velocity?, if_pos hid, if_pos hid]
        rfl
      rw [if_pos hid, hhear, hid.symm]
      rfl
    · have hsilent : Sighting.hear n (.update u) = id :=
        Sighting.hear_of_silent (if_neg hid) (if_neg hid)
      rw [if_neg hid, hsilent, Option.map_id]
      rfl
  | destroy k =>
    have hid : k ≠ n := fun h => hdestroy (congrArg _ h)
    rw [get?_applyDestroy, if_neg hid, Sighting.hear_of_silent rfl rfl, Option.map_id]
    rfl
  | batch b => exact get?_foldl_applyEntry b.entries _ n
  | input i => exact (congrFun Option.map_id (m.get? n)).symm
  | ping => exact (congrFun Option.map_id (m.get? n)).symm
  | pong => exact (congrFun Option.map_id (m.get? n)).symm

/-- Entries about entities that are not there are passed over, and counted. -/
theorem foldl_applyEntry_counts (entries : List Entry) (m : Replica) :
    (entries.foldl applyEntry m).spawnLog = m.spawnLog ∧
      (entries.foldl applyEntry m).batches = m.batches ∧
      (entries.foldl applyEntry m).ignored =
        m.ignored + (entries.filter fun x => (m.get? x.networkId).isNone).length := by
  -- on the entries, with the replica left open, since each is counted against what is there by then
  induction entries generalizing m with
  | nil => exact ⟨rfl, rfl, rfl⟩
  | cons x rest ih =>
    obtain ⟨hlog, hbatches, hignored⟩ := ih (m.applyEntry x)
    -- an entry makes nobody come or go
    have hsame : ∀ n, ((m.applyEntry x).get? n).isNone = (m.get? n).isNone := by
      intro n
      rw [get?_applyEntry]
      split
      · exact Option.isNone_map
      · rfl
    simp only [hsame] at hignored
    rw [List.foldl_cons, hlog, hbatches, hignored, List.filter_cons]
    unfold applyEntry
    cases hget : m.get? x.networkId with
    | none =>
      have hno : m.entities.contains x.networkId = false := by
        rw [SortedMap.contains, show m.entities.get? x.networkId = none from hget]
        rfl
      rw [hno]
      refine ⟨rfl, rfl, ?_⟩
      simp only [Bool.false_eq_true, if_false, Option.isNone_none, if_true, List.length_cons]
      omega
    | some e =>
      have hyes : m.entities.contains x.networkId = true := by
        rw [SortedMap.contains, show m.entities.get? x.networkId = some e from hget]
        rfl
      rw [hyes]
      exact ⟨rfl, rfl, rfl⟩

/-- A message is entered in the log and counted. -/
theorem apply_counts (m : Replica) (p : Payload) :
    (m.apply p).spawnLog = m.spawnLog ++ p.spawned?.toList ∧
      (m.apply p).batches = m.batches + (if p.isBatch then 1 else 0) ∧
      (m.apply p).ignored =
        m.ignored + (p.entries.filter fun x => (m.get? x.networkId).isNone).length := by
  cases p with
  | batch b =>
    obtain ⟨hlog, hbatches, hignored⟩ :=
      foldl_applyEntry_counts b.entries { m with batches := m.batches + 1 }
    exact ⟨hlog.trans (List.append_nil _).symm, hbatches, hignored⟩
  | spawn s => exact ⟨rfl, rfl, rfl⟩
  | update u => exact ⟨(List.append_nil _).symm, rfl, rfl⟩
  | destroy k => exact ⟨(List.append_nil _).symm, rfl, rfl⟩
  | input i => exact ⟨(List.append_nil _).symm, rfl, rfl⟩
  | ping => exact ⟨(List.append_nil _).symm, rfl, rfl⟩
  | pong => exact ⟨(List.append_nil _).symm, rfl, rfl⟩

/-- The replica holds what has been said, no more and no less. -/
structure Reflects (m : Replica) (said : List Payload) : Prop where
  present : ∀ n, (m.get? n).isSome ↔ Announced n said
  seen : ∀ {n e}, m.get? n = some e → ∃ s since, LastSpawn n said s since ∧ e.Told s since
  spawnLog : m.spawnLog = said.filterMap Payload.spawned?
  batches : m.batches = said.countP Payload.isBatch
  ignored : m.ignored = (strays said).length

variable {said : List Payload}

theorem reflects_empty : empty.Reflects [] where
  present n := by
    refine iff_of_false ?_ not_announced_nil
    rw [Bool.not_eq_true]
    rfl
  seen h := by cases h
  spawnLog := rfl
  batches := rfl
  ignored := rfl

/-- What a message changes in a replica, it changes in what has been said. -/
theorem Reflects.apply (h : m.Reflects said) (p : Payload) : (m.apply p).Reflects (said ++ [p]) := by
  obtain ⟨hlog, hbatches, hignored⟩ := m.apply_counts p
  -- by the five fields; an announcement, an end and anything else differ in who is there
  constructor
  case present =>
    intro n
    rw [announced_concat, ← h.present]
    by_cases hspawn : p.spawned? = some n
    · obtain ⟨s, rfl, hid⟩ := Payload.spawned?_eq_some_iff.mp hspawn
      rw [Replica.apply, get?_applySpawn, if_pos hid]
      simp [hspawn]
    · by_cases hdestroy : p = .destroy n
      · rw [hdestroy, get?_applyDestroy, if_pos rfl]
        simp [Payload.spawned?]
      · rw [get?_apply hspawn hdestroy, Option.isSome_map]
        simp [hspawn, hdestroy]
  case seen =>
    intro n e he
    by_cases hspawn : p.spawned? = some n
    · obtain ⟨s, rfl, rfl⟩ := Payload.spawned?_eq_some_iff.mp hspawn
      rw [Replica.apply, get?_applySpawn, if_pos rfl] at he
      obtain rfl := Option.some.inj he
      exact ⟨s, [], lastSpawn_concat s, Sighting.told_spawn s⟩
    · -- not announced anew, the entity goes, or it stays and hears the message
      by_cases hdestroy : p = .destroy n
      · rw [hdestroy, get?_applyDestroy, if_pos rfl] at he
        cases he
      · rw [get?_apply hspawn hdestroy] at he
        obtain ⟨e, hold, rfl⟩ := Option.map_eq_some_iff.mp he
        obtain ⟨s, since, hlast, htold⟩ := h.seen hold
        refine ⟨s, since ++ [p], hlast.concat hspawn, ?_⟩
        rw [← hlast.id_eq]
        exact htold.hear p
  case spawnLog =>
    rw [hlog, h.spawnLog, List.filterMap_append]
    cases hp : p.spawned? <;> simp [hp]
  case batches =>
    rw [hbatches, h.batches, List.countP_append, List.countP_singleton]
  case ignored =>
    -- an entity is there exactly if it is announced
    have habsent : ∀ n, (m.get? n).isNone = decide (¬ Announced n said) := by
      intro n
      rw [Bool.eq_iff_iff, decide_eq_true_eq, ← h.present]
      simp
    rw [hignored, h.ignored, strays_concat, List.length_append]
    simp only [habsent]

theorem reflects_replay (said : List Payload) : (replay said).Reflects said := by
  induction said using List.reverseRecOn with
  | nil => exact reflects_empty
  | append_singleton said p ih =>
    rw [replay_concat]
    exact ih.apply p

/-- Only one replica holds what has been said. -/
theorem Reflects.unique {m' : Replica} (h : m.Reflects said) (h' : m'.Reflects said) : m' = m := by
  have hget : ∀ n, m'.get? n = m.get? n := by
    intro n
    have hpresent : (m'.get? n).isSome = (m.get? n).isSome := by
      rw [Bool.eq_iff_iff, h'.present, h.present]
    cases hm : m.get? n with
    | none =>
      rw [hm] at hpresent
      exact Option.isNone_iff_eq_none.mp (by simpa using hpresent)
    | some e =>
      rw [hm] at hpresent
      obtain ⟨e', hm'⟩ := Option.isSome_iff_exists.mp hpresent
      obtain ⟨s, since, hlast, htold⟩ := h.seen hm
      obtain ⟨s', since', hlast', htold'⟩ := h'.seen hm'
      obtain ⟨rfl, rfl⟩ := hlast.unique hlast'
      rw [hm', htold.unique htold']
  have hentities : m'.entities = m.entities := SortedMap.ext_get? hget
  show (⟨m'.entities, m'.spawnLog, m'.batches, m'.ignored⟩ : Replica) =
    ⟨m.entities, m.spawnLog, m.batches, m.ignored⟩
  rw [hentities, h'.spawnLog, h'.batches, h'.ignored, h.spawnLog, h.batches, h.ignored]

/-- **A replica is what has been said.** Whatever messages come to a new replica, it becomes the one
replica that holds what they say. An entity is there if it has been announced and its end has not been
announced since. It has the kind, owner and name of its last announcement. Of the messages from then on,
the last announcement or update of the entity gives the velocity, and the last announcement, update or
entry of a batch gives the position and health. The log has the announced ids in order, the batches are
counted, and so are the entries about entities that were not there. Inputs, pings and pongs change
nothing, and they are the only messages that are not about the world. -/
theorem eq_replay_iff (said : List Payload) :
    (∀ m, m = replay said ↔ m.Reflects said) ∧
    (∀ m i, apply m (.input i) = m ∧ apply m .ping = m ∧ apply m .pong = m) ∧
    ∀ p, concerns p = false ↔ (∃ i, p = .input i) ∨ p = .ping ∨ p = .pong := by
  refine ⟨fun m => ⟨?_, fun h => (reflects_replay said).unique h⟩, fun m i => ⟨rfl, rfl, rfl⟩, ?_⟩
  · rintro rfl
    exact reflects_replay said
  · intro p
    cases p <;> simp [concerns]

end Replica

end Skirmish

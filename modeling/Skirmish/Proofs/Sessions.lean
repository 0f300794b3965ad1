import Mathlib.Data.List.Perm.Subperm
import Skirmish.Session.Table
/-!
# The life of a session

Whatever is asked of a session table, and whatever words tokens are drawn from, the table stays valid
(`SessionTable.Valid`): numbers, tokens and names each tell the sessions apart, and there are no more
sessions than places.

What a table has is also said without the table. Calls and their answers make a log, and a session is
in the table exactly when the log has a call that opened it and none since that closed it
(`SessionTable.Lives`). All that changes in the meantime is its endpoint, which is that of the latest
datagram under its token (`lastTouch`). One statement about a single call (`Tells.call`) carries this
over all calls.
-/

namespace Skirmish.SessionTable

/-! ## What the operations do -/

/-- What a table makes sure of before it has a new session. -/
structure Admits (t : SessionTable) (username : String) (s : Session) : Prop where
  named : s.username = username
  valid : Control.isValidUsername username = true
  free_name : ∀ {k s'}, t.get? k = some s' → s'.username ≠ username
  place : s.playerId ∈ t.places
  free : ∀ {k s'}, t.get? k = some s' → s'.playerId ≠ s.playerId
  nonzero : s.token ≠ 0
  fresh : t.get? s.token = none
  endpoint : s.endpoint = none

variable {t t' : SessionTable}

theorem mem_values {s : Session} : s ∈ t.byToken.values ↔ ∃ k, t.get? k = some s := by
  rw [SortedMap.values, List.mem_map]
  constructor
  · intro hex
    obtain ⟨⟨k, s'⟩, h, rfl⟩ := hex
    exact ⟨k, SortedMap.get?_eq_some_iff.mpr h⟩
  · intro hex
    obtain ⟨k, h⟩ := hex
    exact ⟨(k, s), SortedMap.get?_eq_some_iff.mp h, rfl⟩

/-- What an admission has found out about the number. -/
theorem admission_ok {username : String} {id : UInt8} (h : t.admission username = .ok id) :
    Control.isValidUsername username = true ∧ t.isTaken username = false ∧ id ∈ t.places ∧
      t.isFree id = true := by
  unfold admission at h
  split at h
  · cases h
  · rename_i hvalid
    split at h
    · cases h
    · rename_i htaken
      split at h
      · rename_i id' hplace
        cases h
        exact ⟨by simpa using hvalid, by simpa using htaken, List.mem_of_find?_eq_some hplace,
          List.find?_some hplace⟩
      · cases h

theorem join_ok {patience : Nat} {username : String} {g g' : Generator} {s : Session}
    (h : t.join patience username g = .ok (s, t', g')) :
    t.Admits username s ∧ t' = { t with byToken := t.byToken.insert s.token s } := by
  unfold join at h
  split at h
  · cases h
  · rename_i id hid
    split at h
    · cases h
    · rename_i token r hfind
      cases h
      obtain ⟨hvalid, htaken, hplace, hfree⟩ := admission_ok hid
      obtain ⟨_, -, hfresh, -, hr⟩ := Generator.find?_eq_some_iff.mp hfind
      rw [← (Prod.mk.inj hr).1] at hfresh
      obtain ⟨hnonzero, habsent⟩ := Bool.and_eq_true_iff.mp hfresh
      -- the number and the token are as the two searches have tested them
      refine ⟨⟨rfl, hvalid, fun hs' => ?_, hplace, fun hs' => ?_, by simpa using hnonzero, ?_, rfl⟩,
        rfl⟩
      · have := List.any_eq_false.mp htaken _ (mem_values.mpr ⟨_, hs'⟩)
        simpa using this
      · have := List.all_eq_true.mp hfree _ (mem_values.mpr ⟨_, hs'⟩)
        simpa using this
      · simpa [SortedMap.contains, get?] using habsent

theorem get?_insert (t : SessionTable) (s : Session) (k : UInt32) :
    ({ t with byToken := t.byToken.insert s.token s } : SessionTable).get? k =
      if s.token = k then some s else t.get? k :=
  SortedMap.get?_insert _ _ _ _

theorem get?_close (t : SessionTable) (token k : UInt32) :
    (t.close token).get? k = if token = k then none else t.get? k :=
  SortedMap.get?_erase _ _ _

/-- A datagram under a known token is noted with the session. -/
theorem touch_eq_some {token : UInt32} {source : Endpoint} {r : UInt8 × EndpointUpdate}
    (h : t.touch token source = some (r, t')) : ∃ s, t.get? token = some s ∧
      r = (s.playerId, updateOf s source) ∧ t'.maxPlayers = t.maxPlayers ∧
      ∀ k, t'.get? k = if token = k then
        (t.get? k).map fun s => { s with endpoint := some source } else t.get? k := by
  obtain ⟨s, hs, heq⟩ := Option.map_eq_some_iff.mp h
  obtain ⟨rfl, rfl⟩ := Prod.mk.inj heq
  exact ⟨s, hs, rfl, rfl, fun k => SortedMap.get?_modify _ _ _ _⟩

theorem touch_eq_none_iff {token : UInt32} {source : Endpoint} :
    t.touch token source = none ↔ t.get? token = none :=
  Option.map_eq_none_iff

/-! ## Validity -/

/-- Numbers, tokens and names tell the sessions apart. -/
structure Valid (t : SessionTable) : Prop where
  token : ∀ {k s}, t.get? k = some s → s.token = k ∧ k ≠ 0
  place : ∀ {k s}, t.get? k = some s → 1 ≤ s.playerId ∧ s.playerId ≤ t.maxPlayers
  name : ∀ {k s}, t.get? k = some s → Control.isValidUsername s.username = true
  distinct_id : ∀ {k k' s s'}, t.get? k = some s → t.get? k' = some s' →
    s.playerId = s'.playerId → k = k'
  distinct_name : ∀ {k k' s s'}, t.get? k = some s → t.get? k' = some s' →
    s.username = s'.username → k = k'

theorem valid_empty (maxPlayers : UInt8) : (empty maxPlayers).Valid := by
  refine ⟨fun h => ?_, fun h => ?_, fun h => ?_, fun h => ?_, fun h => ?_⟩
  · cases h
  · cases h
  · cases h
  · cases h
  · cases h

/-- The places are numbered from one. -/
theorem mem_places {id : UInt8} : id ∈ t.places ↔ 1 ≤ id ∧ id ≤ t.maxPlayers := by
  have hmax : t.maxPlayers.toNat < 256 := t.maxPlayers.toNat_lt
  rw [places, List.mem_map, UInt8.le_iff_toNat_le, UInt8.le_iff_toNat_le]
  show _ ↔ 1 ≤ id.toNat ∧ _
  constructor
  · intro hex
    obtain ⟨n, hn, rfl⟩ := hex
    rw [List.mem_range] at hn
    rw [UInt8.toNat_ofNat_of_lt' (by show n + 1 < 256; omega)]
    omega
  · intro hid
    refine ⟨id.toNat - 1, List.mem_range.mpr (by omega), ?_⟩
    rw [Nat.sub_add_cancel hid.1, UInt8.ofNat_toNat]

/-- A newcomer has a number, a token and a name that nobody else has. -/
theorem Valid.insert (hv : t.Valid) {username : String} {new : Session}
    (ha : t.Admits username new) :
    ({ t with byToken := t.byToken.insert new.token new } : SessionTable).Valid := by
  have hplace := mem_places.mp ha.place
  -- of two different entries one at most is the new one, and it was admitted because it clashes
  -- with none
  refine ⟨fun {k s} h => ?_, fun {k s} h => ?_, fun {k s} h => ?_, fun {k k' s s'} h h' hid => ?_,
    fun {k k' s s'} h h' hname => ?_⟩
  · rw [get?_insert] at h
    split at h
    · rename_i hk
      obtain rfl := Option.some.inj h
      exact ⟨hk, hk ▸ ha.nonzero⟩
    · exact hv.token h
  · rw [get?_insert] at h
    split at h
    · obtain rfl := Option.some.inj h
      exact hplace
    · exact hv.place h
  · rw [get?_insert] at h
    split at h
    · obtain rfl := Option.some.inj h
      rw [ha.named]
      exact ha.valid
    · exact hv.name h
  · rw [get?_insert] at h h'
    split at h <;> split at h'
    · rename_i hk hk'
      exact hk.symm.trans hk'
    · obtain rfl := Option.some.inj h
      exact absurd hid.symm (ha.free h')
    · obtain rfl := Option.some.inj h'
      exact absurd hid (ha.free h)
    · exact hv.distinct_id h h' hid
  · rw [get?_insert] at h h'
    split at h <;> split at h'
    · rename_i hk hk'
      exact hk.symm.trans hk'
    · obtain rfl := Option.some.inj h
      exact absurd (hname.symm.trans ha.named) (ha.free_name h')
    · obtain rfl := Option.some.inj h'
      exact absurd (hname.trans ha.named) (ha.free_name h)
    · exact hv.distinct_name h h' hname

/-- Whatever is left of a valid table, apart from endpoints, is valid. -/
theorem Valid.of_sub (hv : t.Valid) (hmax : t'.maxPlayers = t.maxPlayers)
    (hsub : ∀ {k s'}, t'.get? k = some s' → ∃ s, t.get? k = some s ∧ s'.token = s.token ∧
      s'.playerId = s.playerId ∧ s'.username = s.username) : t'.Valid := by
  -- an entry says no more than it did, so the invariant has less to ask
  refine ⟨fun {k s'} h => ?_, fun {k s'} h => ?_, fun {k s'} h => ?_,
    fun {k k' s₁ s₂} h₁ h₂ hid => ?_, fun {k k' s₁ s₂} h₁ h₂ hname => ?_⟩
  · obtain ⟨s, hs, htoken, -, -⟩ := hsub h
    rw [htoken]
    exact hv.token hs
  · obtain ⟨s, hs, -, hid, -⟩ := hsub h
    rw [hid, hmax]
    exact hv.place hs
  · obtain ⟨s, hs, -, -, hname⟩ := hsub h
    rw [hname]
    exact hv.name hs
  · obtain ⟨s, hs, -, hid₁, -⟩ := hsub h₁
    obtain ⟨s', hs', -, hid₂, -⟩ := hsub h₂
    exact hv.distinct_id hs hs' (by rw [← hid₁, hid, hid₂])
  · obtain ⟨s, hs, -, -, hname₁⟩ := hsub h₁
    obtain ⟨s', hs', -, -, hname₂⟩ := hsub h₂
    exact hv.distinct_name hs hs' (by rw [← hname₁, hname, hname₂])

/-- The numbers that players have, session by session. -/
def ids (t : SessionTable) : List UInt8 := t.byToken.toList.map fun e => e.2.playerId

theorem length_ids : t.ids.length = t.size := List.length_map _

theorem length_places : t.places.length = t.maxPlayers.toNat := by
  rw [places, List.length_map, List.length_range]

theorem mem_ids {id : UInt8} : id ∈ t.ids ↔ ∃ k s, t.get? k = some s ∧ s.playerId = id := by
  rw [ids, List.mem_map]
  constructor
  · intro ⟨e, he, hid⟩
    exact ⟨e.1, e.2, SortedMap.get?_eq_some_iff.mpr he, hid⟩
  · intro ⟨k, s, hs, hid⟩
    exact ⟨(k, s), SortedMap.get?_eq_some_iff.mp hs, hid⟩

theorem Valid.nodup_ids (hv : t.Valid) : t.ids.Nodup := by
  refine List.pairwise_map.mpr (t.byToken.ascending.imp_of_mem fun {e e'} he he' hlt hid => ?_)
  have hk := hv.distinct_id (SortedMap.get?_eq_some_iff.mpr he)
    (SortedMap.get?_eq_some_iff.mpr he') hid
  rw [hk] at hlt
  exact Nat.lt_irrefl _ hlt

theorem Valid.ids_subset (hv : t.Valid) : t.ids ⊆ t.places := by
  intro id hid
  obtain ⟨k, s, hs, rfl⟩ := mem_ids.mp hid
  exact mem_places.mpr (hv.place hs)

/-- There are no more sessions than places, for each has one of its own. -/
theorem Valid.size_le (hv : t.Valid) : t.size ≤ t.maxPlayers.toNat := by
  have hle := (List.subperm_of_subset hv.nodup_ids hv.ids_subset).length_le
  rw [length_ids, length_places] at hle
  exact hle

/-! ## Calls and their answers -/

/-- What can be asked of a table. Every newcomer brings random words along. -/
inductive Call where
  | join (patience : Nat) (username : String) (words : Generator)
  | close (token : UInt32)
  | get (token : UInt32)
  | touch (token : UInt32) (source : Endpoint)

inductive Answer where
  | joined (result : Except JoinFault Session)
  /-- The session that was asked for, or that is closed. -/
  | session (found : Option Session)
  | touched (result : Option (UInt8 × EndpointUpdate))

/-- A call with its answer. -/
structure Record where
  call : Call
  answer : Answer

/-- What a call is answered, and the table afterwards. -/
def call (t : SessionTable) : Call → Answer × SessionTable
  | .join patience username words =>
    match t.join patience username words with
    | .ok (s, t', _) => (.joined (.ok s), t')
    | .error fault => (.joined (.error fault), t)
  | .close token => (.session (t.get? token), t.close token)
  | .get token => (.session (t.get? token), t)
  | .touch token source =>
    match t.touch token source with
    | some (result, t') => (.touched (some result), t')
    | none => (.touched none, t)

/-- The log of several calls, one after the other, and the table afterwards. -/
def run (t : SessionTable) : List Call → List Record × SessionTable
  | [] => ([], t)
  | c :: rest =>
    let (log, last) := run (t.call c).2 rest
    (⟨c, (t.call c).1⟩ :: log, last)

theorem calls_run (t : SessionTable) (calls : List Call) :
    (t.run calls).1.map Record.call = calls := by
  induction calls generalizing t with
  | nil => rfl
  | cons c rest ih =>
    show c :: ((t.call c).2.run rest).1.map Record.call = c :: rest
    rw [ih]

theorem run_concat (t : SessionTable) (calls : List Call) (c : Call) :
    t.run (calls ++ [c]) =
      ((t.run calls).1 ++ [⟨c, ((t.run calls).2.call c).1⟩], ((t.run calls).2.call c).2) := by
  induction calls generalizing t with
  | nil => rfl
  | cons d rest ih =>
    rw [List.cons_append, run, ih]
    rfl

/-- The endpoint that a call tells about a token. -/
def Call.source? (token : UInt32) : Call → Option Endpoint
  | .touch k source => if k = token then some source else none
  | _ => none

/-- What a call makes of a session that it leaves in the table. -/
def Call.noted (c : Call) (s : Session) : Session :=
  { s with endpoint := (c.source? s.token).or s.endpoint }

theorem map_noted_of_silent {c : Call} (h : ∀ k, c.source? k = none) (o : Option Session) :
    o.map c.noted = o := by
  cases o with
  | none => rfl
  | some s =>
    rw [Option.map_some, Call.noted, h]
    rfl

/-- What a call does to a table: a newcomer is admitted, or whatever stays is as it was but for the
endpoint. -/
theorem Valid.call_cases (hv : t.Valid) (c : Call) :
    (∃ patience username words s, c = .join patience username words ∧ t.Admits username s ∧
      t.call c = (.joined (.ok s), { t with byToken := t.byToken.insert s.token s })) ∨
    ((∀ s, (t.call c).1 ≠ .joined (.ok s)) ∧ (t.call c).2.maxPlayers = t.maxPlayers ∧
      (∀ k, c = .close k → (t.call c).2.get? k = none) ∧
      ∀ k, c ≠ .close k → (t.call c).2.get? k = (t.get? k).map c.noted) := by
  -- only admission opens a session; every other call leaves it, ends it or notes where it was heard
  -- from
  cases c with
  | join patience username words =>
    cases hjoin : t.join patience username words with
    | ok r =>
      obtain ⟨s, t', g⟩ := r
      obtain ⟨ha, rfl⟩ := join_ok hjoin
      refine .inl ⟨patience, username, words, s, rfl, ha, ?_⟩
      simp only [call, hjoin]
    | error fault =>
      have hcall : t.call (.join patience username words) = (.joined (.error fault), t) := by
        simp only [call, hjoin]
      rw [hcall]
      exact .inr ⟨by simp, rfl, by simp, fun k _ => (map_noted_of_silent (fun _ => rfl) _).symm⟩
  | close token =>
    refine .inr ⟨by simp [call], rfl, fun k hk => ?_, fun k hk => ?_⟩
    · rw [call, get?_close, if_pos (Call.close.inj hk)]
    · have hne : token ≠ k := fun e => hk (by rw [e])
      rw [call, get?_close, if_neg hne, map_noted_of_silent fun _ => rfl]
  | get token =>
    exact .inr ⟨by simp [call], rfl, by simp,
      fun k _ => (map_noted_of_silent (fun _ => rfl) _).symm⟩
  | touch token source =>
    -- what is noted is noted with the session of this token alone
    have hnoted : ∀ k, (t.get? k).map (Call.touch token source).noted =
        if token = k then (t.get? k).map fun s => { s with endpoint := some source }
        else t.get? k := by
      intro k
      cases hs : t.get? k with
      | none => simp
      | some s =>
        obtain rfl := (hv.token hs).1
        rw [Option.map_some, Call.noted, Call.source?]
        split
        · rfl
        · rfl
    cases htouch : t.touch token source with
    | none =>
      have hcall : t.call (.touch token source) = (.touched none, t) := by
        simp only [call, htouch]
      rw [hcall]
      refine .inr ⟨by simp, rfl, by simp, fun k _ => ?_⟩
      rw [hnoted]
      split
      · rename_i hk
        rw [← hk, touch_eq_none_iff.mp htouch, Option.map_none]
      · rfl
    | some r =>
      obtain ⟨result, t'⟩ := r
      have hcall : t.call (.touch token source) = (.touched (some result), t') := by
        simp only [call, htouch]
      obtain ⟨s, -, -, hmax, hget⟩ := touch_eq_some htouch
      rw [hcall]
      exact .inr ⟨by simp, hmax, by simp, fun k _ => by rw [hnoted, hget]⟩

theorem Valid.call (hv : t.Valid) (c : Call) :
    (t.call c).2.Valid ∧ (t.call c).2.maxPlayers = t.maxPlayers := by
  rcases hv.call_cases c with ⟨_, _, _, s, -, ha, heq⟩ | ⟨-, hmax, hclosed, hkept⟩
  · rw [heq]
    exact ⟨hv.insert ha, rfl⟩
  · refine ⟨hv.of_sub hmax fun {k s'} h => ?_, hmax⟩
    by_cases hk : c = .close k
    · rw [hclosed k hk] at h
      cases h
    · rw [hkept k hk] at h
      obtain ⟨s, hs, rfl⟩ := Option.map_eq_some_iff.mp h
      exact ⟨s, hs, rfl, rfl, rfl⟩

/-! ## What the log tells -/

/-- A call has opened the session, and none since has closed it. -/
def Lives (log : List Record) (s : Session) (since : List Record) : Prop :=
  ∃ before patience username words,
    log = before ++ ⟨.join patience username words, .joined (.ok s)⟩ :: since ∧
      ∀ r ∈ since, r.call ≠ .close s.token

/-- Where the latest datagram under a token has come from. -/
def lastTouch (token : UInt32) (log : List Record) : Option Endpoint :=
  (log.filterMap fun r => r.call.source? token).getLast?

theorem lastTouch_concat (token : UInt32) (log : List Record) (r : Record) :
    lastTouch token (log ++ [r]) = (r.call.source? token).or (lastTouch token log) := by
  rw [lastTouch, List.filterMap_append, List.getLast?_append]
  congr 1
  rw [List.filterMap_cons]
  split
  · rename_i hnone
    rw [hnone]
    rfl
  · rename_i source hsome
    rw [hsome]
    rfl

/-- The last record opens the session, or the session has been there and is not closed by it. -/
theorem lives_concat {log since : List Record} {r : Record} {s : Session} :
    Lives (log ++ [r]) s since ↔
      (since = [] ∧ ∃ patience username words,
        r = ⟨.join patience username words, .joined (.ok s)⟩) ∨
      ∃ since', since = since' ++ [r] ∧ Lives log s since' ∧ r.call ≠ .close s.token := by
  constructor
  · intro hex
    obtain ⟨before, patience, username, words, h, hopen⟩ := hex
    -- the call at the end opens the session itself, or the session was opened before it
    rcases List.eq_nil_or_concat since with rfl | ⟨since', r', rfl⟩
    · have hr := List.append_inj_right' h rfl
      exact .inl ⟨rfl, patience, username, words, (List.cons.inj hr).1⟩
    · rw [List.concat_eq_append] at h hopen ⊢
      rw [← List.cons_append, ← List.append_assoc] at h
      obtain rfl := (List.cons.inj (List.append_inj_right' h rfl)).1
      refine .inr ⟨since', rfl, ⟨before, patience, username, words,
        List.append_inj_left' h rfl, fun r' hr' => ?_⟩, ?_⟩
      · exact hopen r' (List.mem_append_left _ hr')
      · exact hopen r (List.mem_append_right _ List.mem_cons_self)
  · intro hor
    rcases hor with ⟨rfl, patience, username, words, rfl⟩ | ⟨since', rfl, hlives, hclose⟩
    · exact ⟨log, patience, username, words, rfl, by simp⟩
    · obtain ⟨before, patience, username, words, rfl, hopen⟩ := hlives
      refine ⟨before, patience, username, words, by simp, fun r' hr' => ?_⟩
      rcases List.mem_append.mp hr' with hr' | hr'
      · exact hopen r' hr'
      · rw [List.mem_singleton] at hr'
        rw [hr']
        exact hclose

/-- The table has the sessions that live according to the log, each as it was opened but for the
endpoint. -/
def Tells (log : List Record) (t : SessionTable) : Prop :=
  ∀ k s, t.get? k = some s ↔ ∃ s₀ since, Lives log s₀ since ∧ s₀.token = k ∧
    s = { s₀ with endpoint := lastTouch k since }

theorem tells_empty (maxPlayers : UInt8) : Tells [] (empty maxPlayers) := by
  intro k s
  refine iff_of_false (fun h => by cases h) ?_
  intro hex
  obtain ⟨s₀, since, ⟨before, _, _, _, h, -⟩, -⟩ := hex
  simp at h

/-- The log of one more call tells of the table afterwards. -/
theorem Tells.call {log : List Record} (ht : Tells log t) (hv : t.Valid) (c : Call) :
    Tells (log ++ [⟨c, (t.call c).1⟩]) (t.call c).2 := by
  -- the table after one more call against the history with one more record
  rcases hv.call_cases c with ⟨patience, username, words, new, rfl, ha, heq⟩ |
    ⟨hnew, -, hclosed, hkept⟩
  · rw [heq]
    intro k s
    rw [get?_insert]
    split
    · rename_i hk
      subst hk
      constructor
      · intro h
        obtain rfl := Option.some.inj h
        refine ⟨new, [], lives_concat.mpr (.inl ⟨rfl, patience, username, words, rfl⟩), rfl, ?_⟩
        rw [show lastTouch new.token [] = none from rfl, ← ha.endpoint]
      · -- an older session of this token would still be in the table
        intro hex
        obtain ⟨s₀, since, hlives, htoken, rfl⟩ := hex
        rcases lives_concat.mp hlives with ⟨rfl, _, _, _, hr⟩ | ⟨since', -, hold, -⟩
        · obtain rfl : new = s₀ := by
            have := (Record.mk.inj hr).2
            exact Except.ok.inj (Answer.joined.inj this)
          rw [show lastTouch new.token [] = none from rfl, ← ha.endpoint]
        · have hsome := (ht new.token _).mpr ⟨s₀, since', hold, htoken, rfl⟩
          rw [ha.fresh] at hsome
          cases hsome
    · -- the sessions of other tokens have lived through one more call
      rename_i hk
      rw [ht k s]
      constructor
      · intro hex
        obtain ⟨s₀, since, hlives, htoken, rfl⟩ := hex
        refine ⟨s₀, _, lives_concat.mpr (.inr ⟨since, rfl, hlives, by simp⟩), htoken, ?_⟩
        rw [lastTouch_concat]
        rfl
      · intro hex
        obtain ⟨s₀, since, hlives, htoken, rfl⟩ := hex
        rcases lives_concat.mp hlives with ⟨rfl, _, _, _, hr⟩ | ⟨since', rfl, hold, -⟩
        · obtain rfl : new = s₀ := by
            have := (Record.mk.inj hr).2
            exact Except.ok.inj (Answer.joined.inj this)
          exact absurd htoken hk
        · refine ⟨s₀, since', hold, htoken, ?_⟩
          rw [lastTouch_concat]
          rfl
  · -- the call opens nothing, so the table only loses the session that is closed
    intro k s
    constructor
    · intro h
      by_cases hk : c = .close k
      · rw [hclosed k hk] at h
        cases h
      · rw [hkept k hk] at h
        obtain ⟨s₁, hs₁, rfl⟩ := Option.map_eq_some_iff.mp h
        obtain ⟨s₀, since, hlives, htoken, rfl⟩ := (ht k s₁).mp hs₁
        refine ⟨s₀, _, lives_concat.mpr (.inr ⟨since, rfl, hlives, htoken ▸ hk⟩), htoken, ?_⟩
        rw [lastTouch_concat, ← htoken]
        rfl
    · intro hex
      obtain ⟨s₀, since, hlives, htoken, rfl⟩ := hex
      rcases lives_concat.mp hlives with ⟨rfl, _, _, _, hr⟩ | ⟨since', rfl, hold, hclose⟩
      · exact absurd (Record.mk.inj hr).2 (hnew s₀)
      · rw [hkept k (htoken ▸ hclose), (ht k _).mpr ⟨s₀, since', hold, htoken, rfl⟩,
          Option.map_some, lastTouch_concat, ← htoken]
        rfl

/-- Whatever is asked of a new table, it stays valid, and the log tells what it has. -/
theorem run_tells (maxPlayers : UInt8) (calls : List Call) :
    ((empty maxPlayers).run calls).2.Valid ∧
      ((empty maxPlayers).run calls).2.maxPlayers = maxPlayers ∧
      Tells ((empty maxPlayers).run calls).1 ((empty maxPlayers).run calls).2 := by
  -- the last call comes on top of all others
  rw [← List.reverse_reverse calls]
  induction calls.reverse with
  | nil => exact ⟨valid_empty maxPlayers, rfl, tells_empty maxPlayers⟩
  | cons c earlier ih =>
    obtain ⟨hv, hmax, ht⟩ := ih
    rw [List.reverse_cons, run_concat]
    obtain ⟨hv', hmax'⟩ := hv.call c
    exact ⟨hv', hmax'.trans hmax, ht.call hv c⟩

/-! ## What a table can be relied on for -/

/-- A datagram is told apart by where the session's latest one has come from. -/
theorem updateOf_iff (s : Session) (source : Endpoint) :
    (updateOf s source = .established ↔ s.endpoint = none) ∧
      (updateOf s source = .moved ↔ ∃ e, s.endpoint = some e ∧ e ≠ source) ∧
      (updateOf s source = .unchanged ↔ s.endpoint = some source) := by
  unfold updateOf
  cases s.endpoint with
  | none => simp
  | some e =>
    by_cases he : e = source
    · simp [he]
    · simp [he]

/-- A token whose session was closed, and that nobody has drawn since, is no token of the table. -/
theorem Tells.get?_of_closed {log before after : List Record} {k : UInt32} {answer : Answer}
    (ht : Tells log t) (hlog : log = before ++ ⟨.close k, answer⟩ :: after)
    (hafter : ∀ r ∈ after, ∀ s, r.answer = .joined (.ok s) → s.token ≠ k) : t.get? k = none := by
  cases hget : t.get? k with
  | none => rfl
  | some s =>
    exfalso
    obtain ⟨s₀, since, ⟨opening, patience, username, words, hlog', hopen⟩, htoken, -⟩ :=
      (ht k s).mp hget
    rw [hlog] at hlog'
    -- either the session was closed after it was opened, or it was opened after it was closed
    rcases List.append_eq_append_iff.mp hlog' with ⟨between, hopening, hrest⟩ | ⟨between, -, hrest⟩
    · cases between with
      | nil =>
        have := (Record.mk.inj (List.cons.inj hrest).1).1
        cases this
      | cons r between =>
        have hmem : (⟨.join patience username words, .joined (.ok s₀)⟩ : Record) ∈ after := by
          rw [(List.cons.inj hrest).2]
          exact List.mem_append_right _ List.mem_cons_self
        exact hafter _ hmem s₀ rfl htoken
    · cases between with
      | nil =>
        have := (Record.mk.inj (List.cons.inj hrest).1).1
        cases this
      | cons r between =>
        have hmem : (⟨.close k, answer⟩ : Record) ∈ since := by
          rw [(List.cons.inj hrest).2]
          exact List.mem_append_right _ List.mem_cons_self
        exact hopen _ hmem (by rw [htoken])

/-- **What a table can be relied on for.** Whatever is asked of a new table, numbers, tokens and names
each tell its sessions apart, and there are no more sessions than places. The table has the sessions
that the log tells of, each with the number, token and name that it was opened with and with the
endpoint of the latest datagram since. That datagram also decides what the next one is answered. A
token that was closed is unknown until it is drawn again. -/
theorem run_valid_tells {maxPlayers : UInt8} {calls : List Call} {log : List Record}
    {t : SessionTable} (h : (empty maxPlayers).run calls = (log, t)) :
    log.map Record.call = calls ∧ t.Valid ∧ t.maxPlayers = maxPlayers ∧
      t.size ≤ maxPlayers.toNat ∧
      (∀ k s, t.get? k = some s ↔ ∃ s₀ since, Lives log s₀ since ∧ s₀.token = k ∧
        s = { s₀ with endpoint := lastTouch k since }) ∧
      (∀ k source, t.touch k source = none ↔ ¬ ∃ s since, Lives log s since ∧ s.token = k) ∧
      (∀ s since source, Lives log s since → ∃ update t',
        t.touch s.token source = some ((s.playerId, update), t') ∧
        (update = .established ↔ lastTouch s.token since = none) ∧
        (update = .moved ↔ ∃ e, lastTouch s.token since = some e ∧ e ≠ source) ∧
        (update = .unchanged ↔ lastTouch s.token since = some source)) ∧
      ∀ k before answer after, log = before ++ ⟨.close k, answer⟩ :: after →
        (∀ r ∈ after, ∀ s, r.answer = .joined (.ok s) → s.token ≠ k) →
          t.get? k = none ∧ ∀ source, t.touch k source = none := by
  obtain ⟨hv, hmax, ht⟩ := run_tells maxPlayers calls
  have hcalls := calls_run (empty maxPlayers) calls
  rw [h] at hv hmax ht hcalls
  refine ⟨hcalls, hv, hmax, hmax ▸ hv.size_le, ht, fun k source => ?_, fun s since source hs => ?_,
    fun k before answer after hlog hafter => ?_⟩
  · -- a datagram is refused if there is no session, and sessions are what the history tells
    rw [touch_eq_none_iff, ← Option.not_isSome_iff_eq_none, not_iff_not, Option.isSome_iff_exists]
    constructor
    · intro hex
      obtain ⟨s, hs⟩ := hex
      obtain ⟨s₀, since, hlives, htoken, -⟩ := (ht k s).mp hs
      exact ⟨s₀, since, hlives, htoken⟩
    · intro hex
      obtain ⟨s₀, since, hlives, htoken⟩ := hex
      exact ⟨_, (ht k _).mpr ⟨s₀, since, hlives, htoken, rfl⟩⟩
  · have hget := (ht s.token _).mpr ⟨s, since, hs, rfl, rfl⟩
    refine ⟨_, _, by rw [touch, hget, Option.map_some], ?_⟩
    exact updateOf_iff _ source
  · -- a token may be drawn again, so the session is only gone as long as this one has not been
    have hnone := ht.get?_of_closed hlog hafter
    exact ⟨hnone, fun source => touch_eq_none_iff.mpr hnone⟩

/-- A player comes and goes, and the next one draws the same token, after a zero that cannot be one.
The player's first datagram comes. -/
def tokenReuse : List Call := [
  .join 4 "ada" (.cycle [7]),
  .close 7,
  .join 4 "bo" (.cycle [0, 7]),
  .close 9,
  .touch 7 ⟨.v4 (.replicate 4 10), 7001⟩]

theorem run_valid_tells_of_tokenReuse : ∃ log t since update t',
    (empty 4).run tokenReuse = (log, t) ∧ t.Valid ∧ t.size ≤ 4 ∧
      Lives log ⟨1, 7, "bo", none⟩ since ∧
      t.get? 7 = some ⟨1, 7, "bo", some ⟨.v4 (.replicate 4 10), 7001⟩⟩ ∧
      t.touch 7 ⟨.v4 (.replicate 4 10), 7002⟩ = some ((1, update), t') ∧ update = .moved ∧
      t.get? 9 = none := by
  let log := ((empty 4).run tokenReuse).1
  let t := ((empty 4).run tokenReuse).2
  obtain ⟨-, hv, -, hsize, htells, -, htouch, hclosed⟩ :=
    run_valid_tells (show (empty 4).run tokenReuse = (log, t) from rfl)
  have hlives : Lives log ⟨1, 7, "bo", none⟩ (log.drop 3) :=
    ⟨log.take 2, 4, "bo", .cycle [0, 7], rfl, by simp [log, tokenReuse, run]⟩
  obtain ⟨update, t', heq, -, hmoved, -⟩ :=
    htouch _ _ ⟨.v4 (.replicate 4 10), 7002⟩ hlives
  have hlast : lastTouch 7 (log.drop 3) = some ⟨.v4 (.replicate 4 10), 7001⟩ := rfl
  have hmine := (htells 7 _).mpr ⟨_, _, hlives, rfl, rfl⟩
  have hnone := (hclosed 9 (log.take 3) _ (log.drop 4) rfl (by
    intro r hr s hs
    have : r.answer = .touched (some (1, .established)) := by
      rw [List.mem_singleton.mp hr]
      rfl
    rw [this] at hs
    cases hs)).1
  exact ⟨log, t, _, update, t', rfl, hv, hsize, hlives, by rw [hmine, hlast], heq,
    hmoved.mpr ⟨_, hlast, by decide⟩, hnone⟩

end Skirmish.SessionTable

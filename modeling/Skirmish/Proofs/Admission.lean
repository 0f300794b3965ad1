import Skirmish.Gateway.Basic
import Skirmish.Proofs.Sessions
/-!
# Who is admitted

A newcomer is refused for one of three reasons (`SessionTable.Refuses`), and they are looked at in
this order: the name is not valid, somebody has it, or there are as many sessions as places. The table
does not compare these two numbers. It looks for a place that nobody has, and if there is none, then
every place is somebody's, so there are as many sessions as places, since no two have the same
(`Valid.find?_eq_none_iff`).

Whoever is not refused gets the lowest of the free places (`IsLowestFree`), and the first of the words
that can be a token (`IsFirstToken`). A refusal comes before any word is looked at.
-/

namespace Skirmish.SessionTable

/-! ## Places -/

/-- A place that nobody has, and every place below it is somebody's. -/
structure IsLowestFree (t : SessionTable) (id : UInt8) : Prop where
  place : 1 ≤ id ∧ id ≤ t.maxPlayers
  free : ∀ {k s}, t.get? k = some s → s.playerId ≠ id
  lowest : ∀ other, 1 ≤ other → other < id → ∃ k s, t.get? k = some s ∧ s.playerId = other

variable {t : SessionTable}

theorem isFree_iff {id : UInt8} : t.isFree id = true ↔ id ∉ t.ids := by
  rw [isFree, List.all_eq_true, mem_ids]
  constructor
  · intro h ⟨k, s, hs, hid⟩
    have := h s (mem_values.mpr ⟨k, hs⟩)
    exact absurd hid (by simpa using this)
  · intro h s hs
    obtain ⟨k, hk⟩ := mem_values.mp hs
    simpa using fun hid => h ⟨k, s, hk, hid⟩

theorem isFree_eq_false_iff {id : UInt8} : t.isFree id = false ↔ id ∈ t.ids := by
  rw [← Bool.not_eq_true, isFree_iff, Decidable.not_not]

theorem isTaken_iff {username : String} :
    t.isTaken username = true ↔ ∃ k s, t.get? k = some s ∧ s.username = username := by
  rw [isTaken, List.any_eq_true]
  constructor
  · intro ⟨s, hs, hname⟩
    obtain ⟨k, hk⟩ := mem_values.mp hs
    exact ⟨k, s, hk, by simpa using hname⟩
  · intro ⟨k, s, hk, hname⟩
    exact ⟨s, mem_values.mpr ⟨k, hk⟩, by simpa using hname⟩

/-- The places are looked through from the lowest one on. -/
theorem places_ascending (t : SessionTable) : t.places.Pairwise (· < ·) := by
  have hmax : t.maxPlayers.toNat < 256 := t.maxPlayers.toNat_lt
  refine List.pairwise_map.mpr (List.pairwise_lt_range.imp_of_mem fun {m n} hm hn hlt => ?_)
  rw [List.mem_range] at hm hn
  rw [UInt8.lt_iff_toNat_lt, UInt8.toNat_ofNat_of_lt' (by show m + 1 < 256; omega),
    UInt8.toNat_ofNat_of_lt' (by show n + 1 < 256; omega)]
  omega

/-- **No place is free exactly if there are as many sessions as places.** -/
theorem Valid.find?_eq_none_iff (hv : t.Valid) :
    t.places.find? t.isFree = none ↔ t.size = t.maxPlayers.toNat := by
  have hsub := List.subperm_of_subset hv.nodup_ids hv.ids_subset
  rw [List.find?_eq_none, ← length_ids, ← length_places]
  constructor
  · intro h
    have hall : t.places ⊆ t.ids := fun id hid =>
      isFree_eq_false_iff.mp (Bool.not_eq_true _ ▸ h id hid)
    have hnodup : t.places.Nodup := t.places_ascending.imp fun h => UInt8.ne_of_lt h
    exact Nat.le_antisymm hsub.length_le (List.subperm_of_subset hnodup hall).length_le
  · intro hlen id hid
    -- as many different numbers as places are all of the places
    have hperm := hsub.perm_of_length_le (Nat.le_of_eq hlen.symm)
    rw [isFree_iff]
    exact not_not_intro (hperm.mem_iff.mpr hid)

/-- The place that is found is the lowest free one. -/
theorem isLowestFree_of_find? {id : UInt8} (h : t.places.find? t.isFree = some id) :
    t.IsLowestFree id := by
  obtain ⟨hfree, before, after, hsplit, hbefore⟩ := List.find?_eq_some_iff_append.mp h
  have hplace := mem_places.mp (List.mem_of_find?_eq_some h)
  refine ⟨hplace, fun {k s} hs hid => isFree_iff.mp hfree (mem_ids.mpr ⟨k, s, hs, hid⟩),
    fun other hone hlt => ?_⟩
  have hmem : other ∈ t.places := mem_places.mpr ⟨hone, UInt8.le_trans (UInt8.le_of_lt hlt) hplace.2⟩
  have hsorted := t.places_ascending
  rw [hsplit] at hmem hsorted
  rcases List.mem_append.mp hmem with hmem | hmem
  · have hno := hbefore other hmem
    exact mem_ids.mp (isFree_eq_false_iff.mp (by simpa using hno))
  · -- what comes behind the place is higher
    exfalso
    rcases List.mem_cons.mp hmem with rfl | hmem
    · exact UInt8.lt_irrefl _ hlt
    · have hgt := (List.pairwise_cons.mp (List.pairwise_append.mp hsorted).2.1).1 _ hmem
      exact UInt8.lt_asymm hlt hgt

/-! ## Refusals -/

/-- Why a newcomer is refused. What is looked at later counts only if nothing before it does. -/
def Refuses (t : SessionTable) (username : String) : Control.Refusal → Prop
  | .invalidUsername => Control.isValidUsername username = false
  | .alreadyConnected =>
    Control.isValidUsername username = true ∧ ∃ k s, t.get? k = some s ∧ s.username = username
  | .serverFull =>
    Control.isValidUsername username = true ∧
      (¬ ∃ k s, t.get? k = some s ∧ s.username = username) ∧ t.size = t.maxPlayers.toNat

/-- A newcomer is refused for just this reason. -/
theorem Valid.admission_eq_error_iff (hv : t.Valid) {username : String}
    {reason : Control.Refusal} :
    t.admission username = .error reason ↔ t.Refuses username reason := by
  by_cases hvalid : Control.isValidUsername username = true
  · by_cases htaken : t.isTaken username = true
    · cases reason <;> simp [admission, Refuses, hvalid, htaken, ← isTaken_iff]
    · cases hfind : t.places.find? t.isFree with
      | none =>
        have hfull := hv.find?_eq_none_iff.mp hfind
        cases reason <;> simp [admission, Refuses, hvalid, htaken, hfind, hfull, ← isTaken_iff]
      | some id =>
        have hroom : t.size ≠ t.maxPlayers.toNat := fun hfull => by
          rw [hv.find?_eq_none_iff.mpr hfull] at hfind
          cases hfind
        cases reason <;> simp [admission, Refuses, hvalid, htaken, hfind, hroom, ← isTaken_iff]
  · cases reason <;> simp [admission, Refuses, hvalid]

/-- The words have no part in a refusal. -/
theorem join_eq_refused_iff {patience : Nat} {username : String} {words : Generator}
    {reason : Control.Refusal} :
    t.join patience username words = .error (.refused reason) ↔
      t.admission username = .error reason := by
  unfold join
  cases t.admission username with
  | error reason' => simp
  | ok id =>
    cases words.find? t.isFresh patience with
    | none => simp
    | some r => simp

/-! ## Tokens -/

/-- The word at a place of a stream can be a token, and no word before it can. -/
structure IsFirstToken (t : SessionTable) (words : Generator) (n : Nat) : Prop where
  nonzero : words.word (words.drawn + n) ≠ 0
  unknown : t.get? (words.word (words.drawn + n)) = none
  first : ∀ m < n, words.word (words.drawn + m) = 0 ∨
    ∃ s, t.get? (words.word (words.drawn + m)) = some s

theorem isFresh_iff {token : UInt32} :
    t.isFresh token = true ↔ token ≠ 0 ∧ t.get? token = none := by
  simp [isFresh, SortedMap.contains, get?]

theorem isFresh_eq_false_iff {token : UInt32} :
    t.isFresh token = false ↔ token = 0 ∨ ∃ s, t.get? token = some s := by
  rw [← Bool.not_eq_true, isFresh_iff, not_and_or, ne_eq, Decidable.not_not,
    ← Option.isSome_iff_exists, ← ne_eq (t.get? token), Option.isSome_iff_ne_none]

/-- If any word can be a token, then one is the first that can. -/
theorem exists_isFirstToken {words : Generator} {m : Nat}
    (h : words.word (words.drawn + m) ≠ 0) (h' : t.get? (words.word (words.drawn + m)) = none) :
    ∃ n, t.IsFirstToken words n := by
  induction m using Nat.strongRecOn with
  | ind m ih =>
    by_cases hearlier : ∃ k < m, t.isFresh (words.word (words.drawn + k)) = true
    · obtain ⟨k, hk, hfresh⟩ := hearlier
      have hfresh := isFresh_iff.mp hfresh
      exact ih k hk hfresh.1 hfresh.2
    · refine ⟨m, h, h', fun k hk => isFresh_eq_false_iff.mp ?_⟩
      rw [Bool.eq_false_iff]
      exact fun hfresh => hearlier ⟨k, hk, hfresh⟩

/-- The first word that can be a token is found by a search that goes so far. -/
theorem IsFirstToken.find? {words : Generator} {n : Nat} (h : t.IsFirstToken words n)
    {patience : Nat} (hn : n < patience) :
    words.find? t.isFresh patience =
      some (words.word (words.drawn + n), words.advance (n + 1)) :=
  Generator.find?_eq_some_iff.mpr ⟨n, hn, isFresh_iff.mpr ⟨h.nonzero, h.unknown⟩,
    fun m hm => isFresh_eq_false_iff.mpr (h.first m hm), rfl⟩

/-! ## Admissions -/

/-- Whoever is not refused has the lowest free place. -/
theorem Valid.admission_ok (hv : t.Valid) {username : String}
    (h : ∀ reason, ¬ t.Refuses username reason) :
    ∃ id, t.admission username = .ok id ∧ t.IsLowestFree id := by
  cases hadm : t.admission username with
  | error reason => exact absurd (hv.admission_eq_error_iff.mp hadm) (h reason)
  | ok id =>
    refine ⟨id, rfl, isLowestFree_of_find? ?_⟩
    unfold admission at hadm
    split at hadm
    · cases hadm
    · split at hadm
      · cases hadm
      · split at hadm
        · rename_i id' hfind
          cases hadm
          exact hfind
        · cases hadm

/-- **Who is admitted.** Whatever has been asked of a table, a newcomer is refused exactly for the
first reason that holds: the name is not valid, a session has it, or there are as many sessions as
places. A refusal leaves the table as it was, and the gateway draws no word for it. Everyone else gets
the lowest free place and the first word that can be a token, if there is one; then just the words up
to this one are drawn, and the table has the new session and otherwise what it had. -/
theorem run_admits {maxPlayers : UInt8} {calls : List Call} {log : List Record}
    {t : SessionTable} (h : (empty maxPlayers).run calls = (log, t)) (username : String)
    (words : Generator) :
    t.maxPlayers = maxPlayers ∧
    (∀ patience reason, t.join patience username words = .error (.refused reason) ↔
      t.Refuses username reason) ∧
    (∀ reason, t.Refuses username reason →
      (∀ patience, t.call (.join patience username words) =
        (.joined (.error (.refused reason)), t)) ∧
      ∀ (g : Gateway) n c, g.sessions = t → ∃ g', g.requestAdmission n c username = some g' ∧
        g'.sessions = t ∧ g'.generator = g.generator) ∧
    ((∀ reason, ¬ t.Refuses username reason) →
      (∃ m, words.word (words.drawn + m) ≠ 0 ∧
        t.get? (words.word (words.drawn + m)) = none) →
      ∃ id n, t.IsLowestFree id ∧ t.IsFirstToken words n ∧ ∀ patience, n < patience →
        ∃ s t', s = ⟨id, words.word (words.drawn + n), username, none⟩ ∧
          t.join patience username words = .ok (s, t', words.advance (n + 1)) ∧
          t'.maxPlayers = maxPlayers ∧
          ∀ k, t'.get? k = if s.token = k then some s else t.get? k) := by
  obtain ⟨hv, hmax, -⟩ := run_tells maxPlayers calls
  rw [h] at hv hmax
  dsimp only at hv hmax
  refine ⟨hmax, fun patience reason => join_eq_refused_iff.trans hv.admission_eq_error_iff,
    fun reason hreason => ?_, fun hnone hword => ?_⟩
  · -- the table does not change, so asking again is refused as well, with whatever words
    have hjoin : ∀ patience words, t.join patience username words = .error (.refused reason) :=
      fun _ _ => join_eq_refused_iff.mpr (hv.admission_eq_error_iff.mpr hreason)
    refine ⟨fun patience => by simp only [call, hjoin], fun g n c hg => ?_⟩
    subst hg
    exact ⟨g.setConnection n (c.write (.connectError reason) .greeting .ended),
      by simp only [Gateway.requestAdmission, hjoin], rfl, rfl⟩
  · obtain ⟨id, hadm, hlowest⟩ := hv.admission_ok hnone
    obtain ⟨m, hnonzero, hunknown⟩ := hword
    -- words that are no token are passed over, so the first one that can be is found with enough
    -- patience
    obtain ⟨n, hfirst⟩ := exists_isFirstToken hnonzero hunknown
    refine ⟨id, n, hlowest, hfirst, fun patience hn => ?_⟩
    let s : Session := ⟨id, words.word (words.drawn + n), username, none⟩
    exact ⟨s, { t with byToken := t.byToken.insert s.token s }, rfl,
      by simp only [join, hadm, hfirst.find? hn, s], hmax, get?_insert t s⟩

/-- Of three players the first leaves. -/
def joinsAndClose : List Call := [
  .join 4 "ada" (.cycle [7]),
  .join 4 "bo" (.cycle [8]),
  .join 4 "cy" (.cycle [9]),
  .close 7]

/-- The name of a player who is still there is refused. Someone else gets the place of the one who has
left, and the fourth word, after a zero and the tokens of the others. -/
theorem run_admits_after_joinsAndClose : ∃ t t',
    ((empty 3).run joinsAndClose).2 = t ∧
      t.call (.join 1 "bo" (.cycle [5])) = (.joined (.error (.refused .alreadyConnected)), t) ∧
      t.IsLowestFree 1 ∧ t.IsFirstToken (.cycle [0, 8, 9, 5]) 3 ∧
      t.join 4 "di" (.cycle [0, 8, 9, 5]) =
        .ok (⟨1, 5, "di", none⟩, t', (Generator.cycle [0, 8, 9, 5]).advance 4) ∧
      t'.get? 5 = some ⟨1, 5, "di", none⟩ ∧ t'.get? 9 = some ⟨3, 9, "cy", none⟩ := by
  generalize ht : (empty 3).run joinsAndClose = r
  obtain ⟨log, t⟩ := r
  obtain ⟨-, -, hrefused, -⟩ := run_admits ht "bo" (.cycle [5])
  obtain ⟨-, hreason, -, hadmitted⟩ := run_admits ht "di" (.cycle [0, 8, 9, 5])
  obtain rfl : ((empty 3).run joinsAndClose).2 = t := congrArg Prod.snd ht
  have hbo : ((empty 3).run joinsAndClose).2.Refuses "bo" .alreadyConnected :=
    ⟨rfl, 8, ⟨2, 8, "bo", none⟩, rfl, rfl⟩
  have hfree : ((empty 3).run joinsAndClose).2.isFree 1 = true := rfl
  have hnone : ∀ reason, ¬ ((empty 3).run joinsAndClose).2.Refuses "di" reason := by
    intro reason hr
    have hadm : ((empty 3).run joinsAndClose).2.admission "di" = .ok 1 := rfl
    rw [join_eq_refused_iff.mp ((hreason 0 reason).mpr hr)] at hadm
    cases hadm
  obtain ⟨id, n, hlowest, hfirst, hjoin⟩ := hadmitted hnone ⟨3, by decide, rfl⟩
  -- a number above the first place would leave that place to somebody
  obtain rfl : id = 1 := by
    by_contra hne
    have hlt : 1 < id := UInt8.lt_of_le_of_ne hlowest.place.1 (Ne.symm hne)
    exact isFree_iff.mp hfree (mem_ids.mpr (hlowest.lowest 1 (by decide) hlt))
  -- no word in front of the fourth can be a token, and the fourth can
  obtain rfl : n = 3 := by
    by_contra hne
    rcases Nat.lt_or_ge 3 n with hlt | hge
    · rcases hfirst.first 3 hlt with hzero | ⟨s, hs⟩
      · exact absurd hzero (by decide)
      · cases hs
    · obtain rfl | rfl | rfl : n = 0 ∨ n = 1 ∨ n = 2 := by omega
      · exact absurd rfl hfirst.nonzero
      · exact absurd hfirst.unknown (by decide)
      · exact absurd hfirst.unknown (by decide)
  obtain ⟨s, t', rfl, hok, -, hget⟩ := hjoin 4 (by omega)
  exact ⟨_, t', rfl, (hrefused _ hbo).1 1, hlowest, hfirst, hok, (hget 5).trans rfl,
    (hget 9).trans rfl⟩

end Skirmish.SessionTable

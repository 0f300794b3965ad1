import Skirmish.Entity.Call
import Skirmish.Proofs.Allocation
/-!
# Handles are used again, the last one first

What is done with handles makes a history: one is given out (`Change.issued`), one comes back
(`Change.freed`). The history alone says which handles are in use (`Lives`) and which of the others
came back last (`IsLatestFreed`).

A pool writes the same down four times over: the next new number, for each number before it
whether it is in use, the handles to use again in a stack, and how many are in use.
`Pool.Accounts` says that all four follow from the history, so that they agree with one another.
It holds of the empty pool, and one lemma for each of the two changes keeps it. On the registry
only `spawn` and `destroy` change anything (`Registry.change_cases`), so it holds whatever is
asked of a registry.
-/

namespace Skirmish

namespace Pool

/-! ## Histories of handles -/

/-- What happens to a handle. -/
inductive Change where
  | issued (h : Handle)
  | freed (h : Handle)
deriving DecidableEq, Repr

/-- A handle that was given out and has not come back since. -/
def Lives (past : List Change) (h : Handle) : Prop :=
  ∃ before since, past = before ++ .issued h :: since ∧ .freed h ∉ since

/-- Every handle that comes back is given out again later. -/
def Settled : List Change → Prop
  | [] => True
  | .issued _ :: later => Settled later
  | .freed h :: later => .issued h ∈ later ∧ Settled later

/-- A handle that came back and was not given out again, while all that came back after it were. -/
def IsLatestFreed (past : List Change) (h : Handle) : Prop :=
  ∃ before since, past = before ++ .freed h :: since ∧ .issued h ∉ since ∧ Settled since

theorem not_lives_nil (h : Handle) : ¬ Lives [] h := by
  intro hex
  obtain ⟨before, since, hpast, -⟩ := hex
  simp at hpast

/-- The last change gives the handle out, or the handle was in use and does not come back by it. -/
theorem lives_snoc {past : List Change} {e : Change} {h : Handle} :
    Lives (past ++ [e]) h ↔ e = .issued h ∨ Lives past h ∧ e ≠ .freed h := by
  constructor
  · intro hex
    obtain ⟨before, since, hpast, hkept⟩ := hex
    rcases List.eq_nil_or_concat since with rfl | ⟨since', e', rfl⟩
    · exact .inl (List.cons.inj (List.append_inj_right' hpast rfl)).1
    · rw [List.concat_eq_append] at hpast hkept
      rw [← List.cons_append, ← List.append_assoc] at hpast
      obtain rfl := (List.cons.inj (List.append_inj_right' hpast rfl)).1
      rw [List.mem_append, not_or, List.mem_singleton] at hkept
      exact .inr ⟨⟨before, since', List.append_inj_left' hpast rfl, hkept.1⟩, Ne.symm hkept.2⟩
  · intro hor
    rcases hor with rfl | ⟨⟨before, since, rfl, hkept⟩, hne⟩
    · exact ⟨past, [], rfl, by simp⟩
    · refine ⟨before, since ++ [e], by simp, ?_⟩
      rw [List.mem_append, not_or, List.mem_singleton]
      exact ⟨hkept, Ne.symm hne⟩

theorem Settled.append {past later : List Change} (hp : Settled past) (hl : Settled later) :
    Settled (past ++ later) := by
  induction past with
  | nil => exact hl
  | cons e rest ih =>
    cases e with
    | issued h => exact ih hp
    | freed h => exact ⟨List.mem_append_left _ hp.1, ih hp.2⟩

/-- A stack with the handles that came back and were not given out again, the last one on top. -/
def Stacked : List Change → List Handle → Prop
  | past, [] => Settled past
  | past, h :: below => ∃ before since, past = before ++ .freed h :: since ∧
      Stacked before below ∧ Settled since ∧ ∀ k ∈ h :: below, .issued k ∉ since

/-- What is settled by itself leaves the stack as it is, if it does not concern it. -/
theorem Stacked.append {past later : List Change} {free : List Handle} (hs : Stacked past free)
    (hl : Settled later) (hfree : ∀ k ∈ free, .issued k ∉ later) :
    Stacked (past ++ later) free := by
  cases free with
  | nil => exact Settled.append hs hl
  | cons h below =>
    obtain ⟨before, since, rfl, hbelow, hsince, hmem⟩ := hs
    refine ⟨before, since ++ later, by simp, hbelow, hsince.append hl, fun k hk => ?_⟩
    rw [List.mem_append, not_or]
    exact ⟨hmem k hk, hfree k hk⟩

/-- The handle on top is given out. -/
theorem Stacked.pop {past : List Change} {h : Handle} {below : List Handle}
    (hs : Stacked past (h :: below)) (hnodup : h ∉ below) :
    Stacked (past ++ [.issued h]) below := by
  obtain ⟨before, since, rfl, hbelow, hsince, hmem⟩ := hs
  -- everything since `h` came back is settled, now that `h` is given out as well
  have hsettled : Settled (.freed h :: (since ++ [.issued h])) :=
    ⟨List.mem_append_right _ List.mem_cons_self, hsince.append trivial⟩
  rw [List.append_assoc, List.cons_append]
  refine hbelow.append hsettled fun k hk => ?_
  have hkh : k ≠ h := fun e => hnodup (e ▸ hk)
  have hsk := hmem k (List.mem_cons_of_mem _ hk)
  simp [hsk, hkh]

theorem Stacked.isLatestFreed {past : List Change} {h : Handle} {below : List Handle}
    (hs : Stacked past (h :: below)) : IsLatestFreed past h := by
  obtain ⟨before, since, hpast, -, hsince, hmem⟩ := hs
  exact ⟨before, since, hpast, hmem h List.mem_cons_self, hsince⟩

/-! ## Head counts -/

theorem length_handles (p : Pool) : p.handles.length = p.live.count true := by
  rw [handles, List.length_filterMap_eq_countP, ← Array.count_toList, List.count,
    ← List.zipIdx_map_fst 0 p.live.toList, List.countP_map, List.zipIdx_map_fst]
  congr 1
  funext entry
  obtain ⟨live, i⟩ := entry
  cases live <;> rfl

/-- A flag is pushed and then set. -/
theorem push_setIfInBounds (live : Array Bool) :
    (live.push false).setIfInBounds live.size true = live.push true := by
  simp [Array.setIfInBounds, Array.set_push]

theorem count_setIfInBounds {live : Array Bool} {i : Nat} {old new : Bool}
    (h : live[i]? = some old) : (live.setIfInBounds i new).count true =
      live.count true - old.toNat + new.toNat := by
  obtain ⟨hi, hold⟩ := Array.getElem?_eq_some_iff.mp h
  rw [Array.setIfInBounds_def, dif_pos hi, Array.count_set, hold]
  cases old <;> cases new <;> rfl

theorem flag_of_isLive {p : Pool} {h : Handle} (hl : p.isLive h = true) :
    p.live[h.index]? = some true := by
  unfold isLive at hl
  cases hget : p.live[h.index]? with
  | none => simp [hget] at hl
  | some live => simpa [hget] using hl

theorem flag_of_mem_free {p : Pool} (hv : p.Valid) {h : Handle} (hm : h ∈ p.free) :
    p.live[h.index]? = some false := by
  obtain ⟨hi, hl⟩ := (hv.mem_free h).mp hm
  rw [isLive, Array.getElem?_eq_getElem hi] at hl
  rw [Array.getElem?_eq_getElem hi]
  simpa using hl

/-! ## A pool and its history -/

/-- All that a pool has written down is what its history says. -/
structure Accounts (past : List Change) (p : Pool) : Prop where
  valid : p.Valid
  issued : ∀ h, h.index < p.next ↔ .issued h ∈ past
  live : ∀ h, p.isLive h = true ↔ Lives past h
  stacked : Stacked past p.free
  population : p.population = p.live.count true

theorem accounts_empty : Accounts [] empty where
  valid := valid_empty
  issued h := by simp [empty]
  live h := iff_of_false (by simp) (not_lives_nil h)
  stacked := trivial
  population := rfl

variable {p : Pool} {past : List Change}

/-- What the history of a pool says when a handle is given out. -/
theorem Accounts.take (ha : Accounts past p) :
    Accounts (past ++ [.issued p.take.1]) p.take.2 := by
  have hlive : ∀ h, p.take.2.isLive h = true ↔ Lives (past ++ [.issued p.take.1]) h := by
    intro h
    rw [isLive_take ha.valid, lives_snoc, Change.issued.injEq, ← ha.live h]
    split
    · rename_i hh
      simp [hh]
    · rename_i hh
      simp [hh]
  cases hf : p.free with
  | nil =>
    -- a new number
    have ht : p.take = (⟨p.next⟩, ⟨p.next + 1, p.live.push true, [], p.population + 1⟩) := by
      simp [Pool.take, hf, ha.valid.next_eq, push_setIfInBounds]
    have hs : Stacked past [] := hf ▸ ha.stacked
    refine ⟨valid_take ha.valid, fun h => ?_, hlive, ?_, ?_⟩
    · rw [List.mem_append, List.mem_singleton, ← ha.issued h, ht, Change.issued.injEq]
      obtain ⟨i⟩ := h
      simp only [Handle.mk.injEq]
      omega
    · rw [ht]
      exact hs.append trivial (by simp)
    · rw [ht]
      show p.population + 1 = (p.live.push true).count true
      rw [Array.count_push, ha.population]
      rfl
  | cons k below =>
    -- the handle that came back last
    have ht : p.take =
        (k, ⟨p.next, p.live.setIfInBounds k.index true, below, p.population + 1⟩) := by
      simp [Pool.take, hf]
    have hk : k ∈ p.free := hf ▸ List.mem_cons_self
    have hnodup : k ∉ below := (List.nodup_cons.mp (hf ▸ ha.valid.nodup)).1
    have hs : Stacked past (k :: below) := hf ▸ ha.stacked
    refine ⟨valid_take ha.valid, fun h => ?_, hlive, ?_, ?_⟩
    · rw [List.mem_append, List.mem_singleton, ← ha.issued h, ht, Change.issued.injEq]
      have hki : k.index < p.next := by
        rw [ha.valid.next_eq]
        exact ((ha.valid.mem_free k).mp hk).1
      exact ⟨Or.inl, fun hor => hor.elim id fun e => e ▸ hki⟩
    · rw [ht]
      exact hs.pop hnodup
    · rw [ht]
      show p.population + 1 = (p.live.setIfInBounds k.index true).count true
      rw [count_setIfInBounds (flag_of_mem_free ha.valid hk), ha.population]
      rfl

/-- What the history of a pool says when a handle comes back. -/
theorem Accounts.giveBack (ha : Accounts past p) {h : Handle} (hl : p.isLive h = true) :
    Accounts (past ++ [.freed h]) (p.giveBack h) where
  valid := valid_giveBack ha.valid hl
  issued k := by
    rw [List.mem_append, List.mem_singleton, ← ha.issued k]
    simp [Pool.giveBack]
  live k := by
    rw [isLive_giveBack, lives_snoc, ← ha.live k]
    by_cases hk : h = k
    · simp [hk]
    · simp [hk]
  stacked := ⟨past, [], rfl, ha.stacked, trivial, by simp⟩
  population := by
    show p.population - 1 = (p.live.setIfInBounds h.index false).count true
    rw [count_setIfInBounds (flag_of_isLive hl), ha.population]
    rfl

/-- Nothing is free exactly when all handles that were ever given out are in use. -/
theorem Accounts.free_eq_nil_iff (ha : Accounts past p) :
    p.free = [] ↔ ∀ h, .issued h ∈ past → p.isLive h = true := by
  rw [List.eq_nil_iff_forall_not_mem]
  refine forall_congr' fun h => ?_
  rw [ha.valid.mem_free h, ← ha.issued h, ha.valid.next_eq, not_and, Bool.not_eq_false]

end Pool

/-! ## The registry -/

namespace Registry

variable {κ : Type} {Value : κ → Type}

/-- What a call has done with handles, by its answer. -/
def Record.change? : Record Value → Option Pool.Change
  | ⟨.spawn, h⟩ => some (.issued h)
  | ⟨.destroy h, answer⟩ => match answer with
    | true => some (.freed h)
    | false => none
  | _ => none

/-- What several calls have done with handles. -/
def changes (log : List (Record Value)) : List Pool.Change := log.filterMap Record.change?

theorem changes_snoc (log : List (Record Value)) (e : Record Value) :
    changes (log ++ [e]) = changes log ++ (Record.change? e).toList := by
  rw [changes, List.filterMap_append]
  cases h : Record.change? e with
  | none => simp [changes, h]
  | some change => simp [changes, h]

variable {r : Registry Value}

/-- The next handle is on top of the stack, if there is one. -/
theorem isLatestFreed_spawn {past : List Pool.Change} (ha : Pool.Accounts past r.pool)
    (hf : r.pool.free ≠ []) : Pool.IsLatestFreed past r.spawn.1 := by
  cases hfree : r.pool.free with
  | nil => exact absurd hfree hf
  | cons k below =>
    have hk : r.spawn.1 = k := by
      show r.pool.take.1 = k
      simp [Pool.take, hfree]
    have hs : Pool.Stacked past (k :: below) := hfree ▸ ha.stacked
    rw [hk]
    exact hs.isLatestFreed

/-- The next handle is a new number, if there is nothing on the stack. -/
theorem spawn_of_free_eq_nil {past : List Pool.Change} (ha : Pool.Accounts past r.pool)
    (hf : r.pool.free = []) : r.spawn.1 = ⟨r.pool.next⟩ ∧ .issued r.spawn.1 ∉ past := by
  have hspawn : r.spawn.1 = ⟨r.pool.next⟩ := by
    show r.pool.take.1 = _
    simp [Pool.take, hf]
  refine ⟨hspawn, fun hm => ?_⟩
  have hlt := (ha.issued r.spawn.1).mpr hm
  rw [hspawn] at hlt
  exact Nat.lt_irrefl _ hlt

variable [DecidableEq κ]

/-- A call gives out a handle, takes one back that is in use, or leaves handles alone. -/
theorem change_cases (r : Registry Value) (q : Call Value) :
    (Record.change? ⟨q, (r.call q).1⟩ = some (.issued r.pool.take.1) ∧
      (r.call q).2.pool = r.pool.take.2) ∨
    (∃ h, r.isAlive h = true ∧ Record.change? ⟨q, (r.call q).1⟩ = some (.freed h) ∧
      (r.call q).2.pool = r.pool.giveBack h) ∨
    (Record.change? ⟨q, (r.call q).1⟩ = none ∧ (r.call q).2.pool = r.pool) := by
  -- only a spawn and the end of somebody alive change the pool, and the history has them alone
  cases q with
  | spawn => exact .inl ⟨rfl, rfl⟩
  | destroy h =>
    by_cases ha : r.isAlive h = true
    · rw [call_destroy, ha]
      refine .inr (.inl ⟨h, ha, rfl, ?_⟩)
      rw [destroy, if_pos ha]
    · rw [call_destroy_of_dead ha]
      exact .inr (.inr ⟨rfl, rfl⟩)
  | insert c h v => exact .inr (.inr ⟨rfl, pool_insert c h v⟩)
  | modify c h f => exact .inr (.inr ⟨rfl, pool_modify c h f⟩)
  | remove c h => exact .inr (.inr ⟨rfl, pool_remove c h⟩)
  | isAlive | population | entities | get | has | register | column | entries | store | overwrite =>
    exact .inr (.inr ⟨rfl, rfl⟩)

/-- One more call, and one more change if it is about handles. -/
theorem accounts_call {log : List (Record Value)} (ha : Pool.Accounts (changes log) r.pool)
    (q : Call Value) :
    Pool.Accounts (changes (log ++ [⟨q, (r.call q).1⟩])) (r.call q).2.pool := by
  rw [changes_snoc]
  rcases r.change_cases q with ⟨hchange, hpool⟩ | ⟨h, hl, hchange, hpool⟩ | ⟨hchange, hpool⟩
  · rw [hchange, hpool]
    exact ha.take
  · rw [hchange, hpool]
    exact ha.giveBack hl
  · rw [hchange, hpool, Option.toList_none, List.append_nil]
    exact ha

/-- Whatever is asked of a new registry, its pool accounts for what was done with handles. -/
theorem accounts_run (calls : List (Call Value)) :
    Pool.Accounts (changes ((empty : Registry Value).run calls).1)
      ((empty : Registry Value).run calls).2.pool := by
  -- the last call comes on top of all others
  rw [← List.reverse_reverse calls]
  induction calls.reverse with
  | nil => exact Pool.accounts_empty
  | cons q earlier ih =>
    rw [List.reverse_cons, run_snoc]
    exact accounts_call ih q

/-- What a registry whose handles have a certain history can be relied on for. -/
structure Allocates (past : List Pool.Change) (r : Registry Value) : Prop where
  /-- The counter counts the handles that were ever given out. -/
  counter : ∀ h, h.index < r.pool.next ↔ .issued h ∈ past
  /-- The table has an entry for each of them, and no other. -/
  table : r.pool.live.size = r.pool.next
  /-- Those are alive that were given out and have not come back. -/
  alive : ∀ h, r.isAlive h = true ↔ Pool.Lives past h
  free_nodup : r.pool.free.Nodup
  mem_free : ∀ h, h ∈ r.pool.free ↔ .issued h ∈ past ∧ r.isAlive h = false
  entities_ascending : r.entities.Pairwise fun a b => a.index < b.index
  mem_entities : ∀ h, h ∈ r.entities ↔ r.isAlive h = true
  population : r.population = r.entities.length
  /-- Nobody alive has the handle that is given out next. -/
  spawn_idle : r.isAlive r.spawn.1 = false
  /-- While a handle is free, the one that came back last is given out again. -/
  spawn_again : ∀ h, .issued h ∈ past → r.isAlive h = false → Pool.IsLatestFreed past r.spawn.1
  /-- While none is free, the next number is given out for the first time. -/
  spawn_new : (∀ h, .issued h ∈ past → r.isAlive h = true) →
    r.spawn.1 = ⟨r.pool.next⟩ ∧ .issued r.spawn.1 ∉ past
  destroy_iff : ∀ h, (r.call (.destroy h)).1 = true ↔ r.isAlive h = true
  /-- Destroying what is not alive does nothing. -/
  destroy_dead : ∀ h, r.isAlive h = false → (r.call (.destroy h)).2 = r

/-- **Handles are used again, the last one first.** Whatever is asked of a new registry, in
whatever order and of whatever handles: its counter, its table, its stack of free handles and its
head count agree with what was done with handles so far. So nobody alive has a handle that is
given out, the one that came back last is given out first, and a new number only when no handle is
free. Only the living can be destroyed, and the list of the living is complete, ascending and as
long as the head count says. -/
theorem run_allocates (calls : List (Call Value)) :
    Allocates (changes ((empty : Registry Value).run calls).1)
      ((empty : Registry Value).run calls).2 := by
  have ha : Pool.Accounts _ ((empty : Registry Value).run calls).2.pool := accounts_run calls
  generalize ((empty : Registry Value).run calls).2 = r at ha ⊢
  generalize changes ((empty : Registry Value).run calls).1 = past at ha ⊢
  exact {
    counter := ha.issued
    table := ha.valid.next_eq.symm
    alive := ha.live
    free_nodup := ha.valid.nodup
    mem_free := fun h => by rw [ha.valid.mem_free h, ← ha.issued h, ha.valid.next_eq]; rfl
    entities_ascending := Pool.handles_ascending _
    mem_entities := fun _ => Pool.mem_handles
    population := ha.population.trans (Pool.length_handles _).symm
    spawn_idle := isAlive_spawn_fst ha.valid
    -- while anybody is free, the handle that is taken is the last one that was given back
    spawn_again := fun h hm hdead => by
      refine isLatestFreed_spawn ha fun hf => ?_
      have halive := ha.free_eq_nil_iff.mp hf h hm
      rw [show r.pool.isLive h = false from hdead] at halive
      cases halive
    spawn_new := fun hall => spawn_of_free_eq_nil ha (ha.free_eq_nil_iff.mpr hall)
    destroy_iff := fun h => by
      rw [call_destroy]
      exact Iff.rfl
    destroy_dead := fun h hdead => by rw [call_destroy_of_dead (by simp [hdead])] }

end Registry

end Skirmish

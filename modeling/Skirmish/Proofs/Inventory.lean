import Mathlib.Data.Set.Insert
import Mathlib.Logic.Function.Basic
import Skirmish.Proofs.Recycling
/-!
# What a registry is, apart from its columns

For whoever uses it, a registry is a set of live handles and a partial map from types and handles
to components: an *inventory*. `Inventory.Answers` says for every call what an inventory answers
and what becomes of it. There are no columns in it, no holes and no numbers of handles; which
handle `spawn` gives out is left open, only that nobody alive has it and that it carries nothing.

A registry shows its inventory (`Registry.inventory`). Each call answers as the inventory does, and
shows what becomes of it (`Registry.answers_call`); so every run of a registry is a run of an
inventory (`Registry.run_refines`). What makes this work is that only the living carry anything
(`Inventory.OnlyLive`): a handle that is used again comes without components. The registry itself does
not see to that where a column is written to directly, so whoever does this has to
(`Registry.StoresLive`).
-/

namespace Skirmish

variable {κ : Type} {Value : κ → Type}

/-- The live handles, and what each carries. -/
@[ext]
structure Inventory (Value : κ → Type) where
  live : Set Handle
  entry : (c : κ) → Handle → Option (Value c)

namespace Inventory

def empty : Inventory Value := ⟨∅, fun _ _ => none⟩

/-- One more is alive. -/
def enlist (s : Inventory Value) (h : Handle) : Inventory Value := ⟨insert h s.live, s.entry⟩

/-- Nobody carries anything any more under this handle. -/
def clear (s : Inventory Value) (h : Handle) : Inventory Value :=
  ⟨s.live \ {h}, fun c => Function.update (s.entry c) h none⟩

/-- The components of a type, ascending by handle, each once. -/
structure Lists (s : Inventory Value) (c : κ) (entries : List (Handle × Value c)) : Prop where
  ascending : entries.Pairwise fun x y => x.1.index < y.1.index
  mem_iff : ∀ h v, (h, v) ∈ entries ↔ s.entry c h = some v

/-- The live handles, ascending, each once. -/
structure Counts (s : Inventory Value) (handles : List Handle) : Prop where
  ascending : handles.Pairwise fun a b => a.index < b.index
  mem_iff : ∀ h, h ∈ handles ↔ h ∈ s.live

/-- Only the living carry anything. -/
def OnlyLive (s : Inventory Value) : Prop :=
  ∀ {c : κ} {h : Handle} {v : Value c}, s.entry c h = some v → h ∈ s.live

theorem onlyLive_empty : (empty : Inventory Value).OnlyLive := by
  intro c h v hv
  cases hv

theorem OnlyLive.entry_of_dead {s : Inventory Value} (hs : s.OnlyLive) {h : Handle}
    (hdead : h ∉ s.live) (c : κ) : s.entry c h = none := by
  cases hentry : s.entry c h with
  | none => rfl
  | some v => exact absurd (hs hentry) hdead

theorem OnlyLive.clear {s : Inventory Value} (hs : s.OnlyLive) (h : Handle) :
    (s.clear h).OnlyLive := by
  intro c k v hv
  simp only [Inventory.clear, Function.update_apply] at hv
  split at hv
  · cases hv
  · rename_i hk
    exact ⟨hs hv, hk⟩

variable [DecidableEq κ]

/-- One entry changed. -/
def set (s : Inventory Value) (c : κ) (h : Handle) (v : Option (Value c)) : Inventory Value :=
  { s with entry := Function.update s.entry c (Function.update (s.entry c) h v) }

/-- All entries of a type changed. -/
def rewrite (s : Inventory Value) (c : κ) (f : Handle → Value c → Value c) : Inventory Value :=
  { s with entry := Function.update s.entry c fun h => (s.entry c h).map (f h) }

/-- What an inventory answers to a call, and what becomes of it. -/
inductive Answers (s : Inventory Value) :
    (q : Registry.Call Value) → q.Answer → Inventory Value → Prop
  | spawn {h : Handle} (hidle : h ∉ s.live) (hbare : ∀ c, s.entry c h = none) :
      Answers s .spawn h (s.enlist h)
  | destroy {h : Handle} (hl : h ∈ s.live) : Answers s (.destroy h) true (s.clear h)
  | destroy_dead {h : Handle} (hdead : h ∉ s.live) : Answers s (.destroy h) false s
  | isAlive {h : Handle} {b : Bool} (hb : b = true ↔ h ∈ s.live) : Answers s (.isAlive h) b s
  | population {handles : List Handle} (hl : s.Counts handles) :
      Answers s .population handles.length s
  | entities {handles : List Handle} (hl : s.Counts handles) : Answers s .entities handles s
  | insert {c : κ} {h : Handle} {v : Value c} (hl : h ∈ s.live) :
      Answers s (.insert c h v) () (s.set c h (some v))
  | insert_dead {c : κ} {h : Handle} {v : Value c} (hdead : h ∉ s.live) :
      Answers s (.insert c h v) () s
  | get {c : κ} {h : Handle} : Answers s (.get c h) (s.entry c h) s
  | has {c : κ} {h : Handle} : Answers s (.has c h) (s.entry c h).isSome s
  | modify {c : κ} {h : Handle} {f : Value c → Value c} :
      Answers s (.modify c h f) (s.entry c h) (s.set c h ((s.entry c h).map f))
  | remove {c : κ} {h : Handle} : Answers s (.remove c h) (s.entry c h) (s.set c h none)
  | register {c : κ} : Answers s (.register c) () s
  /-- A column that is not there reads as an empty one. -/
  | column_none {c : κ} (hnone : ∀ h, s.entry c h = none) : Answers s (.column c) none s
  | column_some {c : κ} {column : Column (Value c)} (hget : ∀ h, column.get? h = s.entry c h)
      (hl : s.Lists c column.entries) (hcount : column.entries.length = column.count) :
      Answers s (.column c) (some column) s
  | entries {c : κ} {entries : List (Handle × Value c)} (hl : s.Lists c entries) :
      Answers s (.entries c) entries s
  /-- A column is written to directly for the living only. -/
  | store {c : κ} {h : Handle} {v : Value c} (hl : h ∈ s.live) :
      Answers s (.store c h v) v (s.set c h (some v))
  | overwrite {c : κ} {f : Handle → Value c → Value c} {entries : List (Handle × Value c)}
      (hl : s.Lists c entries) : Answers s (.overwrite c f) entries (s.rewrite c f)

/-- A new inventory is asked what the log says, answers so, and becomes this one. -/
inductive Runs : List (Registry.Record Value) → Inventory Value → Prop
  | nil : Runs [] empty
  | snoc {log : List (Registry.Record Value)} {s s' : Inventory Value} {q : Registry.Call Value}
      {a : q.Answer} (hruns : Runs log s) (hanswers : Answers s q a s') :
      Runs (log ++ [⟨q, a⟩]) s'

theorem eq_set {s t : Inventory Value} {c : κ} {h : Handle} {v : Option (Value c)}
    (hlive : t.live = s.live) (hself : t.entry c h = v)
    (hother : ∀ d k, c ≠ d ∨ h ≠ k → t.entry d k = s.entry d k) : t = s.set c h v := by
  refine Inventory.ext hlive (funext fun d => funext fun k => ?_)
  by_cases hd : c = d
  · subst hd
    by_cases hk : h = k
    · subst hk
      simp [set, hself]
    · simp [set, Function.update_of_ne (Ne.symm hk), hother c k (.inr hk)]
  · simp [set, Function.update_of_ne (Ne.symm hd), hother d k (.inl hd)]

/-! ## Only the living carry anything -/

theorem OnlyLive.set {s : Inventory Value} (hs : s.OnlyLive) {c : κ} {h : Handle}
    {v : Option (Value c)} (hv : v.isSome → h ∈ s.live) : (s.set c h v).OnlyLive := by
  intro d k x hx
  by_cases hd : c = d
  · subst hd
    by_cases hk : h = k
    · subst hk
      simp only [Inventory.set, Function.update_self] at hx
      exact hv (by rw [hx]; rfl)
    · simp only [Inventory.set, Function.update_self, Function.update_of_ne (Ne.symm hk)] at hx
      exact hs hx
  · simp only [Inventory.set, Function.update_of_ne (Ne.symm hd)] at hx
    exact hs hx

theorem OnlyLive.rewrite {s : Inventory Value} (hs : s.OnlyLive) (c : κ)
    (f : Handle → Value c → Value c) : (s.rewrite c f).OnlyLive := by
  intro d k x hx
  by_cases hd : c = d
  · subst hd
    simp only [Inventory.rewrite, Function.update_self] at hx
    obtain ⟨v, hv, -⟩ := Option.map_eq_some_iff.mp hx
    exact hs hv
  · simp only [Inventory.rewrite, Function.update_of_ne (Ne.symm hd)] at hx
    exact hs hx

/-- No call lets the dead carry anything. -/
theorem Answers.onlyLive {s s' : Inventory Value} {q : Registry.Call Value} {a : q.Answer}
    (h : Answers s q a s') (hs : s.OnlyLive) : s'.OnlyLive := by
  cases h with
  | spawn hidle hbare => exact fun hv => .inr (hs hv)
  | destroy hl => exact hs.clear _
  | insert hl => exact hs.set fun _ => hl
  | modify =>
    refine hs.set fun hsome => ?_
    obtain ⟨v, hv⟩ := Option.isSome_iff_exists.mp hsome
    obtain ⟨w, hw, -⟩ := Option.map_eq_some_iff.mp hv
    exact hs hw
  | remove => exact hs.set fun hsome => by cases hsome
  | store hl => exact hs.set fun _ => hl
  | overwrite hl => exact hs.rewrite _ _
  | destroy_dead | isAlive | population | entities | insert_dead | get | has | register
  | column_none | column_some | entries => exact hs

end Inventory

namespace Registry

variable [DecidableEq κ] {r : Registry Value}

/-- What a registry shows. -/
def inventory (r : Registry Value) : Inventory Value :=
  ⟨{h | r.isAlive h = true}, fun c h => r.get? c h⟩

/-! ## What each operation shows -/

theorem live_of_pool {r' : Registry Value} (h : r'.pool = r.pool) :
    r'.inventory.live = r.inventory.live := by
  show {k | r'.pool.isLive k = true} = {k | r.pool.isLive k = true}
  rw [h]

theorem inventory_spawn (hv : r.pool.Valid) :
    r.spawn.2.inventory = r.inventory.enlist r.spawn.1 := by
  refine Inventory.ext (Set.ext fun h => ?_) rfl
  show r.spawn.2.isAlive h = true ↔ h = r.spawn.1 ∨ r.isAlive h = true
  rw [isAlive_spawn hv]
  by_cases hh : r.spawn.1 = h
  · simp [hh]
  · simp [hh, Ne.symm hh]

theorem inventory_destroy {h : Handle} (ha : r.isAlive h = true) :
    (r.destroy h).inventory = r.inventory.clear h := by
  refine Inventory.ext (Set.ext fun k => ?_) (funext fun c => funext fun k => ?_)
  · show (r.destroy h).isAlive k = true ↔ r.isAlive k = true ∧ k ≠ h
    rw [isAlive_destroy]
    by_cases hk : h = k
    · simp [hk]
    · simp [hk, Ne.symm hk]
  · show (r.destroy h).get? c k = Function.update (fun k => r.get? c k) h none k
    rw [get?_destroy, Function.update_apply]
    by_cases hk : h = k
    · simp [hk, hk ▸ ha]
    · simp [hk, Ne.symm hk]

theorem inventory_store (c : κ) (h : Handle) (v : Value c) :
    (r.store c h v).inventory = r.inventory.set c h (some v) :=
  Inventory.eq_set rfl (get?_store_self r c h v) fun _ _ hne => get?_store_of_ne r v hne

theorem inventory_insert {h : Handle} (ha : r.isAlive h = true) (c : κ) (v : Value c) :
    (r.insert c h v).inventory = r.inventory.set c h (some v) :=
  Inventory.eq_set (live_of_pool (pool_insert c h v)) (get?_insert_self ha c v)
    fun _ _ hne => get?_insert_of_ne r v hne

theorem inventory_modify (c : κ) (h : Handle) (f : Value c → Value c) :
    (r.modify c h f).inventory = r.inventory.set c h ((r.get? c h).map f) :=
  Inventory.eq_set (live_of_pool (pool_modify c h f)) (get?_modify_self r c h f)
    fun _ _ hne => get?_modify_of_ne f hne

theorem inventory_remove (c : κ) (h : Handle) :
    (r.remove c h).inventory = r.inventory.set c h none :=
  Inventory.eq_set (live_of_pool (pool_remove c h)) (get?_remove_self r c h)
    fun _ _ hne => get?_remove_of_ne hne

theorem inventory_register (c : κ) : (r.register c).inventory = r.inventory :=
  Inventory.ext rfl (funext fun d => funext fun h => get?_register r c d h)

theorem inventory_mapColumn (c : κ) (f : Handle → Value c → Value c) :
    (r.mapColumn c f).inventory = r.inventory.rewrite c f := by
  refine Inventory.ext rfl (funext fun d => ?_)
  by_cases hd : c = d
  · subst hd
    funext h
    show (r.mapColumn c f).get? c h = Function.update r.inventory.entry c _ c h
    rw [mapColumn, get?_setColumn_self, Column.get?_map, Function.update_self]
    rfl
  · funext h
    show (r.mapColumn c f).get? d h = Function.update r.inventory.entry c _ d h
    rw [mapColumn, get?_setColumn_of_ne hd, Function.update_of_ne (Ne.symm hd)]
    rfl

/-! ## What a registry lists -/

theorem lists_entries (r : Registry Value) (c : κ) : r.inventory.Lists c (r.entries c) where
  ascending := Column.entries_ascending _
  mem_iff _ _ := mem_entries

theorem counts_entities (r : Registry Value) : r.inventory.Counts r.entities where
  ascending := Pool.handles_ascending _
  mem_iff _ := Pool.mem_handles

theorem column_of_column? {c : κ} {column : Column (Value c)} (h : r.column? c = some column) :
    r.column c = column := by
  rw [Registry.column, h, Option.getD_some]

/-! ## Calls -/

/-- Columns are written to directly for the living only. -/
def Allows (r : Registry Value) : Call Value → Prop
  | .store _ h _ => r.isAlive h = true
  | _ => True

/-- The same for several calls, each asked of what the calls before it have left. -/
def StoresLive (r : Registry Value) : List (Call Value) → Prop
  | [] => True
  | q :: rest => r.Allows q ∧ StoresLive (r.call q).2 rest

/-- A call answers as the inventory does and shows what becomes of it. -/
theorem answers_call {past : List Pool.Change} (ha : Pool.Accounts past r.pool)
    (hr : r.inventory.OnlyLive) {q : Call Value} (hq : r.Allows q) :
    Inventory.Answers r.inventory q (r.call q).1 (r.call q).2.inventory := by
  -- a call is told to the inventory by the lemma of its own, and whoever is dead gets nothing
  cases q with
  | spawn =>
    have hidle : ¬ r.isAlive r.spawn.1 = true := by simp [isAlive_spawn_fst ha.valid]
    show Inventory.Answers r.inventory .spawn r.spawn.1 r.spawn.2.inventory
    rw [inventory_spawn ha.valid]
    exact .spawn hidle (hr.entry_of_dead hidle)
  | destroy h =>
    by_cases hl : r.isAlive h = true
    · rw [call_destroy, inventory_destroy hl, hl]
      exact .destroy hl
    · rw [call_destroy_of_dead hl]
      exact .destroy_dead hl
  | isAlive h => exact .isAlive Iff.rfl
  | population =>
    -- the population is a counter of the pool, and the history says what it counts
    have hcount : r.population = r.entities.length :=
      ha.population.trans (Pool.length_handles _).symm
    show Inventory.Answers r.inventory .population r.population r.inventory
    rw [hcount]
    exact .population r.counts_entities
  | entities => exact .entities r.counts_entities
  | insert c h v =>
    show Inventory.Answers r.inventory (.insert c h v) () (r.insert c h v).inventory
    by_cases hl : r.isAlive h = true
    · rw [inventory_insert hl]
      exact .insert hl
    · rw [insert, if_neg hl]
      exact .insert_dead hl
  | get c h => exact .get
  | has c h => exact .has
  | modify c h f =>
    show Inventory.Answers r.inventory (.modify c h f) (r.get? c h) (r.modify c h f).inventory
    rw [inventory_modify]
    exact .modify
  | remove c h =>
    show Inventory.Answers r.inventory (.remove c h) (r.get? c h) (r.remove c h).inventory
    rw [inventory_remove]
    exact .remove
  | register c =>
    show Inventory.Answers r.inventory (.register c) () (r.register c).inventory
    rw [inventory_register]
    exact .register
  | column c =>
    show Inventory.Answers r.inventory (.column c) (r.column? c) r.inventory
    cases hc : r.column? c with
    | none =>
      refine .column_none fun h => ?_
      show (r.column c).get? h = none
      rw [Registry.column, hc]
      rfl
    | some column =>
      have hcolumn := column_of_column? hc
      refine .column_some (fun h => ?_) ?_ column.length_entries
      · rw [← hcolumn]
        rfl
      · rw [← hcolumn]
        exact r.lists_entries c
  | entries c => exact .entries (r.lists_entries c)
  | store c h v =>
    show Inventory.Answers r.inventory (.store c h v) v (r.store c h v).inventory
    rw [inventory_store]
    exact .store hq
  | overwrite c f =>
    show Inventory.Answers r.inventory (.overwrite c f) (r.entries c) (r.mapColumn c f).inventory
    rw [inventory_mapColumn]
    exact .overwrite (r.lists_entries c)

/-! ## Runs -/

/-- What a registry shows is an inventory that was asked the same and answered the same. -/
structure Follows (log : List (Record Value)) (r : Registry Value) : Prop where
  runs : Inventory.Runs log r.inventory
  accounts : Pool.Accounts (changes log) r.pool
  onlyLive : r.inventory.OnlyLive

theorem inventory_empty : (empty : Registry Value).inventory = Inventory.empty :=
  Inventory.ext (Set.ext fun h => by simp [inventory, Inventory.empty]) rfl

theorem follows_empty : Follows [] (empty : Registry Value) where
  runs := by
    rw [inventory_empty]
    exact .nil
  accounts := Pool.accounts_empty
  onlyLive := by
    rw [inventory_empty]
    exact Inventory.onlyLive_empty

theorem Follows.call {log : List (Record Value)} (hf : Follows log r) {q : Call Value}
    (hq : r.Allows q) : Follows (log ++ [⟨q, (r.call q).1⟩]) (r.call q).2 := by
  have hanswers := answers_call hf.accounts hf.onlyLive hq
  exact ⟨hf.runs.snoc hanswers, accounts_call hf.accounts q, hanswers.onlyLive hf.onlyLive⟩

theorem Follows.run {log : List (Record Value)} (hf : Follows log r) {calls : List (Call Value)}
    (hstores : r.StoresLive calls) : Follows (log ++ (r.run calls).1) (r.run calls).2 := by
  induction calls generalizing log r with
  | nil =>
    rw [show (r.run []).1 = [] from rfl, List.append_nil]
    exact hf
  | cons q rest ih =>
    have hrest := ih (hf.call hstores.1) hstores.2
    rw [List.append_assoc] at hrest
    exact hrest

/-- **A registry is an inventory.** Whatever is asked of a new registry, as long as columns are
written to directly for the living only: it answers as an inventory that is asked the same, and
shows what becomes of that inventory. Nobody but the living has components, and a walk over the
components of a type meets each of them once, ascending by handle, as many as there are.

Handles are natural numbers here. A registry whose handles have thirty-two bits answers the same and
goes the same way, as long as fewer than 2³² numbers have been handed out (`Registry.run?_eq`). -/
theorem run_refines {calls : List (Call Value)} {log : List (Record Value)} {r : Registry Value}
    (hstores : (empty : Registry Value).StoresLive calls) (hrun : empty.run calls = (log, r)) :
    log.map Sigma.fst = calls ∧ Inventory.Runs log r.inventory ∧
      (∀ c h v, r.get? c h = some v → r.isAlive h = true) ∧
      ∀ c, r.inventory.Lists c (r.entries c) ∧ (r.entries c).length = (r.column c).count := by
  have hcalls := calls_of_run (empty : Registry Value) calls
  have hf := follows_empty.run hstores
  rw [hrun] at hcalls hf
  exact ⟨hcalls, hf.runs, fun c h v hv => hf.onlyLive hv,
    fun c => ⟨r.lists_entries c, (r.column c).length_entries⟩⟩

/-- Somebody with a component goes, and somebody else comes under the same handle, who was given
something too early. -/
def handleReuse : List (Call ComponentType.Value) := [
  .spawn,
  .store .health ⟨0⟩ (.full 3),
  .spawn,
  .insert .damage ⟨1⟩ 5,
  .destroy ⟨0⟩,
  .insert .damage ⟨0⟩ 9,
  .spawn,
  .get .health ⟨0⟩,
  .entries .damage]

theorem run_refines_of_handleReuse : ∃ log r,
    (empty : Registry ComponentType.Value).run handleReuse = (log, r) ∧
      (empty : Registry ComponentType.Value).StoresLive handleReuse ∧
      Inventory.Runs log r.inventory ∧ log.drop 6 = [⟨.spawn, (⟨0⟩ : Handle)⟩,
        ⟨.get .health ⟨0⟩, (none : Option Health)⟩,
        ⟨.entries .damage, ([(⟨1⟩, 5)] : List (Handle × UInt8))⟩] ∧
      r.inventory.Lists .damage [(⟨1⟩, 5)] := by
  have hstores : (empty : Registry ComponentType.Value).StoresLive handleReuse :=
    ⟨trivial, rfl, trivial, trivial, trivial, trivial, trivial, trivial, trivial, trivial⟩
  obtain ⟨-, hruns, -, hlists⟩ := run_refines hstores rfl
  exact ⟨_, _, rfl, hstores, hruns, rfl, (hlists .damage).1⟩

end Registry

end Skirmish

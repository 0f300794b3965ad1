import Skirmish.World.Basic
/-!
# Who has which handle

A handle that is given out belongs to nobody else. That rests on what holds of every pool
(`Pool.Valid`): numbers are handed out without a gap, and the handles to use again are exactly those
that were handed out and are not in use, each once. Taking one of them, or a new number, therefore
never hits a live entity.

On the registry this says what the birth of an entity does (`isAlive_summon`, `get?_summon`) and what
the end of several entities does (`isAlive_destroyAll`, `get?_destroyAll`). Everything that is proved
about the world goes through these.
-/

namespace Skirmish

/-! ## The pool -/

namespace Pool

/-- Numbers are handed out without a gap, and the handles to use again are those that are not in
use, each once. -/
structure Valid (p : Pool) : Prop where
  next_eq : p.next = p.live.size
  nodup : p.free.Nodup
  mem_free : ∀ h, h ∈ p.free ↔ h.index < p.live.size ∧ p.isLive h = false

theorem valid_empty : empty.Valid where
  next_eq := rfl
  nodup := List.nodup_nil
  mem_free h := by simp [empty]

theorem isLive_eq_false_of_size_le {p : Pool} {h : Handle} (hs : p.live.size ≤ h.index) :
    p.isLive h = false := by
  rw [isLive, Array.getElem?_eq_none hs]
  rfl

theorem index_lt_of_isLive {p : Pool} {h : Handle} (hl : p.isLive h = true) :
    h.index < p.live.size := by
  rcases Nat.lt_or_ge h.index p.live.size with hs | hs
  · exact hs
  · rw [isLive_eq_false_of_size_le hs] at hl
    exact absurd hl (by simp)

/-- The handle that is given out was not in use. -/
theorem isLive_take_fst {p : Pool} (hv : p.Valid) : p.isLive p.take.1 = false := by
  cases hf : p.free with
  | nil =>
    have ht : p.take.1 = ⟨p.live.size⟩ := by simp [take, hf, hv.next_eq]
    rw [ht]
    exact isLive_eq_false_of_size_le (Nat.le_refl _)
  | cons h rest =>
    have ht : p.take.1 = h := by simp [take, hf]
    rw [ht]
    exact ((hv.mem_free h).mp (hf ▸ List.mem_cons_self)).2

theorem isLive_take {p : Pool} (hv : p.Valid) (h : Handle) :
    p.take.2.isLive h = if p.take.1 = h then true else p.isLive h := by
  obtain ⟨i⟩ := h
  cases hf : p.free with
  | nil =>
    simp only [take, hf, isLive, hv.next_eq, Array.getElem?_setIfInBounds, Array.getElem?_push,
      Array.size_push, Handle.mk.injEq]
    by_cases hi : i = p.live.size
    · simp [hi]
    · simp [hi, Ne.symm hi]
  | cons k rest =>
    obtain ⟨j⟩ := k
    have hj : j < p.live.size := ((hv.mem_free ⟨j⟩).mp (hf ▸ List.mem_cons_self)).1
    simp only [take, hf, isLive, Array.getElem?_setIfInBounds, Handle.mk.injEq]
    by_cases hij : j = i
    · subst hij
      simp [hj]
    · simp [hij]

theorem valid_take {p : Pool} (hv : p.Valid) : p.take.2.Valid := by
  cases hf : p.free with
  | nil =>
    -- nothing is free, so a new number is handed out
    have hfree : p.take.2.free = [] := by simp [take, hf]
    have hsize : p.take.2.live.size = p.live.size + 1 := by simp [take, hf]
    have hfst : p.take.1 = ⟨p.live.size⟩ := by simp [take, hf, hv.next_eq]
    have hnext : p.take.2.next = p.live.size + 1 := by simp [take, hf, hv.next_eq]
    refine ⟨hnext.trans hsize.symm, by rw [hfree]; exact List.nodup_nil, fun h => ?_⟩
    rw [hfree, hsize, isLive_take hv, hfst]
    refine iff_of_false (by simp) ?_
    intro hex
    obtain ⟨hi, hl⟩ := hex
    split at hl
    · exact absurd hl (by simp)
    · rename_i hne
      have hi' : h.index < p.live.size := by
        have : h.index ≠ p.live.size := fun e => hne (by rw [← e])
        omega
      have : h ∈ p.free := (hv.mem_free h).mpr ⟨hi', hl⟩
      rw [hf] at this
      exact absurd this (by simp)
  | cons k rest =>
    -- the handle that was given back last is handed out
    have hfree : p.take.2.free = rest := by simp [take, hf]
    have hsize : p.take.2.live.size = p.live.size := by simp [take, hf]
    have hfst : p.take.1 = k := by simp [take, hf]
    have hnodup : k ∉ rest ∧ rest.Nodup := List.nodup_cons.mp (hf ▸ hv.nodup)
    have hnext : p.take.2.next = p.live.size := by simp [take, hf, hv.next_eq]
    refine ⟨hnext.trans hsize.symm, by rw [hfree]; exact hnodup.2, fun h => ?_⟩
    rw [hfree, hsize, isLive_take hv, hfst]
    have hmem := hv.mem_free h
    rw [hf, List.mem_cons] at hmem
    by_cases hk : k = h
    · subst hk
      simp [hnodup.1]
    · rw [if_neg hk, ← hmem]
      simp [Ne.symm hk]

theorem valid_giveBack {p : Pool} (hv : p.Valid) {h : Handle} (hl : p.isLive h = true) :
    (p.giveBack h).Valid := by
  have hfresh : h ∉ p.free := by
    intro hm
    rw [((hv.mem_free h).mp hm).2] at hl
    exact absurd hl (by simp)
  have hsize : (p.giveBack h).live.size = p.live.size := by simp [giveBack]
  refine ⟨hv.next_eq.trans hsize.symm, List.nodup_cons.mpr ⟨hfresh, hv.nodup⟩, fun k => ?_⟩
  show k ∈ h :: p.free ↔ _
  rw [hsize, isLive_giveBack, List.mem_cons, hv.mem_free]
  by_cases hk : h = k
  · subst hk
    simp [index_lt_of_isLive hl]
  · simp [hk, Ne.symm hk]

end Pool

/-! ## The registry -/

namespace Registry

variable {κ : Type} {Value : κ → Type} {r : Registry Value}

theorem isAlive_spawn_fst (hv : r.pool.Valid) : r.isAlive r.spawn.1 = false :=
  Pool.isLive_take_fst hv

theorem isAlive_spawn (hv : r.pool.Valid) (h : Handle) :
    r.spawn.2.isAlive h = if r.spawn.1 = h then true else r.isAlive h :=
  Pool.isLive_take hv h

theorem valid_destroy (hv : r.pool.Valid) (h : Handle) : (r.destroy h).pool.Valid := by
  unfold destroy
  split
  · rename_i ha
    exact Pool.valid_giveBack hv ha
  · exact hv

/-- The end of several entities. -/
def destroyAll (r : Registry Value) (gone : List Handle) : Registry Value := gone.foldl destroy r

theorem valid_destroyAll (gone : List Handle) (hv : r.pool.Valid) :
    (r.destroyAll gone).pool.Valid := by
  induction gone generalizing r with
  | nil => exact hv
  | cons h rest ih => exact ih (valid_destroy hv h)

theorem isAlive_destroyAll (gone : List Handle) (h : Handle) :
    (r.destroyAll gone).isAlive h = if h ∈ gone then false else r.isAlive h := by
  induction gone generalizing r with
  | nil => rfl
  | cons k rest ih =>
    show ((r.destroy k).destroyAll rest).isAlive h = _
    rw [ih, isAlive_destroy]
    by_cases hk : k = h
    · subst hk
      simp
    · simp [hk, Ne.symm hk]

/-- Whoever was alive has lost all components, and nobody else any. -/
theorem get?_destroyAll [DecidableEq κ] (gone : List Handle) (c : κ) (h : Handle) :
    (r.destroyAll gone).get? c h =
      if h ∈ gone ∧ r.isAlive h = true then none else r.get? c h := by
  induction gone generalizing r with
  | nil => simp [destroyAll]
  | cons k rest ih =>
    show ((r.destroy k).destroyAll rest).get? c h = _
    rw [ih, isAlive_destroy, get?_destroy]
    by_cases hk : k = h
    · subst hk
      simp
    · simp [hk, Ne.symm hk]

variable [DecidableEq κ]

@[simp]
theorem pool_insert (c : κ) (h : Handle) (v : Value c) : (r.insert c h v).pool = r.pool := by
  unfold insert
  split <;> rfl

@[simp]
theorem pool_modify (c : κ) (h : Handle) (f : Value c → Value c) :
    (r.modify c h f).pool = r.pool := by
  unfold modify
  split <;> rfl

@[simp]
theorem pool_remove (c : κ) (h : Handle) : (r.remove c h).pool = r.pool := by
  unfold remove
  split <;> rfl

theorem get?_setColumn_self (c : κ) (column : Column (Value c)) (h : Handle) :
    (r.setColumn c column).get? c h = column.get? h := by
  simp [get?]

theorem get?_setColumn_of_ne {c d : κ} (hcd : c ≠ d) (column : Column (Value c)) (h : Handle) :
    (r.setColumn c column).get? d h = r.get? d h := by
  rw [get?, column_setColumn_of_ne r hcd, get?]

theorem get?_modify_of_ne {c d : κ} {h h' : Handle} (f : Value c → Value c)
    (hne : c ≠ d ∨ h ≠ h') : (r.modify c h f).get? d h' = r.get? d h' := by
  unfold modify
  split
  · rfl
  · rename_i column hc
    by_cases hcd : c = d
    · subst hcd
      have hh : h ≠ h' := hne.resolve_left fun n => n rfl
      have hcol : r.column c = column := by simp [Registry.column, hc]
      rw [get?_setColumn_self, Column.get?_modify, if_neg hh, get?, hcol]
    · exact get?_setColumn_of_ne hcd _ _

theorem get?_remove_of_ne {c d : κ} {h h' : Handle} (hne : c ≠ d ∨ h ≠ h') :
    (r.remove c h).get? d h' = r.get? d h' := by
  unfold remove
  split
  · rfl
  · rename_i column hc
    by_cases hcd : c = d
    · subst hcd
      have hh : h ≠ h' := hne.resolve_left fun n => n rfl
      have hcol : r.column c = column := by simp [Registry.column, hc]
      rw [get?_setColumn_self, Column.get?_erase, if_neg hh, get?, hcol]
    · exact get?_setColumn_of_ne hcd _ _

end Registry

/-! ## New entities -/

namespace World

/-- The component of a type among several, the last one if there are more. -/
def partOf? (c : ComponentType) : List Part → Option c.Value
  | [] => none
  | ⟨d, v⟩ :: rest => (partOf? c rest).or (if h : d = c then some (h ▸ v) else none)

@[simp]
theorem isAlive_equip (r : Registry ComponentType.Value) (h k : Handle) (parts : List Part) :
    (equip r h parts).isAlive k = r.isAlive k := by
  induction parts generalizing r with
  | nil => rfl
  | cons part rest ih =>
    show (equip (r.insert part.1 h part.2) h rest).isAlive k = _
    rw [ih, Registry.isAlive_insert]

@[simp]
theorem pool_equip (r : Registry ComponentType.Value) (h : Handle) (parts : List Part) :
    (equip r h parts).pool = r.pool := by
  induction parts generalizing r with
  | nil => rfl
  | cons part rest ih =>
    show (equip (r.insert part.1 h part.2) h rest).pool = _
    rw [ih, Registry.pool_insert]

theorem get?_equip_of_ne (r : Registry ComponentType.Value) {h k : Handle} (hne : h ≠ k)
    (parts : List Part) (c : ComponentType) : (equip r h parts).get? c k = r.get? c k := by
  induction parts generalizing r with
  | nil => rfl
  | cons part rest ih =>
    show (equip (r.insert part.1 h part.2) h rest).get? c k = _
    rw [ih, Registry.get?_insert_of_ne r _ (.inr hne)]

theorem get?_equip_self {r : Registry ComponentType.Value} {h : Handle}
    (ha : r.isAlive h = true) (parts : List Part) (c : ComponentType) :
    (equip r h parts).get? c h = (partOf? c parts).or (r.get? c h) := by
  induction parts generalizing r with
  | nil => rfl
  | cons part rest ih =>
    obtain ⟨d, v⟩ := part
    show (equip (r.insert d h v) h rest).get? c h = _
    rw [ih (by rw [Registry.isAlive_insert]; exact ha), partOf?, Option.or_assoc]
    congr 1
    -- the first part is put on before the rest, so a later one of its type wins
    by_cases hd : d = c
    · subst hd
      rw [Registry.get?_insert_self ha]
      simp
    · rw [Registry.get?_insert_of_ne r v (.inl hd)]
      simp [hd]

variable {w : World}

@[simp]
theorem summon_fst (parts : List Part) : (w.summon parts).1 = w.registry.spawn.1 := rfl

@[simp]
theorem players_summon (parts : List Part) : (w.summon parts).2.players = w.players := rfl

@[simp]
theorem nextNetworkId_summon (parts : List Part) :
    (w.summon parts).2.nextNetworkId = followingId w.nextNetworkId := rfl

theorem registry_summon (parts : List Part) :
    (w.summon parts).2.registry = equip w.registry.spawn.2 w.registry.spawn.1
      (⟨.networkId, w.nextNetworkId⟩ :: parts) := rfl

theorem valid_summon (hv : w.registry.pool.Valid) (parts : List Part) :
    (w.summon parts).2.registry.pool.Valid := by
  rw [registry_summon, pool_equip]
  exact Pool.valid_take hv

theorem isAlive_summon (hv : w.registry.pool.Valid) (parts : List Part) (h : Handle) :
    (w.summon parts).2.registry.isAlive h =
      if w.registry.spawn.1 = h then true else w.registry.isAlive h := by
  rw [registry_summon, isAlive_equip, Registry.isAlive_spawn hv]

/-- Nobody else notices. -/
theorem get?_summon_of_ne (parts : List Part) (c : ComponentType) {h : Handle}
    (hne : w.registry.spawn.1 ≠ h) :
    (w.summon parts).2.registry.get? c h = w.registry.get? c h := by
  rw [registry_summon, get?_equip_of_ne _ hne, Registry.get?_spawn]

/-- The new entity has what it is given and the next network id, if its handle came without any
components. -/
theorem get?_summon_self (hv : w.registry.pool.Valid) (parts : List Part) (c : ComponentType)
    (hnone : w.registry.get? c w.registry.spawn.1 = none) :
    (w.summon parts).2.registry.get? c w.registry.spawn.1 =
      partOf? c (⟨.networkId, w.nextNetworkId⟩ :: parts) := by
  have ha : w.registry.spawn.2.isAlive w.registry.spawn.1 = true := by
    rw [Registry.isAlive_spawn hv, if_pos rfl]
  rw [registry_summon, get?_equip_self ha, Registry.get?_spawn, hnone, Option.or_none]

end World

end Skirmish

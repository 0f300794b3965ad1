import Skirmish.Entity.Handle
/-!
# Columns

All components of one type, in slots numbered like the handles of the entities that carry them.
Erasing leaves a hole, and a column never shrinks. Everything a column does is said through `get?`;
`entries` lists what is there, ascending by handle.
-/

namespace Skirmish

/-- The components of one type. -/
structure Column (α : Type) where
  slots : Array (Option α) := #[]
deriving DecidableEq, Repr, Inhabited

namespace Column

variable {α : Type}

def empty : Column α := ⟨#[]⟩

def get? (c : Column α) (h : Handle) : Option α := c.slots[h.index]?.join

def contains (c : Column α) (h : Handle) : Bool := (c.get? h).isSome

/-- Slots up to and including the one of a handle. -/
def grown (c : Column α) (h : Handle) : Array (Option α) :=
  c.slots ++ Array.replicate (h.index + 1 - c.slots.size) none

def insert (c : Column α) (h : Handle) (a : α) : Column α :=
  ⟨(c.grown h).setIfInBounds h.index (some a)⟩

def erase (c : Column α) (h : Handle) : Column α := ⟨c.slots.setIfInBounds h.index none⟩

/-- The component of one entity changed, if it has one. -/
def modify (c : Column α) (h : Handle) (f : α → α) : Column α :=
  ⟨c.slots.setIfInBounds h.index ((c.get? h).map f)⟩

/-- Every component changed in view of its entity. -/
def map (f : Handle → α → α) (c : Column α) : Column α :=
  ⟨c.slots.mapIdx fun i slot => slot.map (f ⟨i⟩)⟩

/-- How many slots there are, holes included. -/
def capacity (c : Column α) : Nat := c.slots.size

/-- How many components there are. -/
def count (c : Column α) : Nat := c.slots.countP Option.isSome

/-- The components, ascending by handle. -/
def entries (c : Column α) : List (Handle × α) :=
  c.slots.toList.zipIdx.filterMap fun (slot, i) => slot.map fun a => (⟨i⟩, a)

/-- Every component changed in view of its entity, if all of them can be. -/
def change? (f : Handle → α → Option α) (c : Column α) : Option (Column α) :=
  if c.entries.all fun (h, a) => (f h a).isSome then some (c.map fun h a => (f h a).getD a)
  else none

/-! ## What the operations do to the look-ups -/

@[simp]
theorem get?_empty (h : Handle) : (empty : Column α).get? h = none := rfl

theorem get?_insert (c : Column α) (h h' : Handle) (a : α) :
    (c.insert h a).get? h' = if h = h' then some a else c.get? h' := by
  obtain ⟨i⟩ := h
  obtain ⟨j⟩ := h'
  simp only [insert, get?, grown, Handle.mk.injEq, Array.getElem?_setIfInBounds]
  by_cases hij : i = j
  · subst hij
    simp only [Array.size_append, Array.size_replicate, if_true]
    rw [if_pos (by omega)]
    rfl
  · simp only [hij, if_false, Array.getElem?_append, Array.getElem?_replicate]
    by_cases hj : j < c.slots.size
    · simp [hj]
    · rw [if_neg hj, Array.getElem?_eq_none (by omega)]
      split <;> rfl

@[simp]
theorem get?_insert_self (c : Column α) (h : Handle) (a : α) : (c.insert h a).get? h = some a := by
  rw [get?_insert, if_pos rfl]

theorem get?_erase (c : Column α) (h h' : Handle) :
    (c.erase h).get? h' = if h = h' then none else c.get? h' := by
  obtain ⟨i⟩ := h
  obtain ⟨j⟩ := h'
  simp only [erase, get?, Handle.mk.injEq, Array.getElem?_setIfInBounds]
  by_cases hij : i = j
  · subst hij
    by_cases hi : i < c.slots.size <;> simp [hi]
  · simp [hij]

theorem get?_modify (c : Column α) (h h' : Handle) (f : α → α) :
    (c.modify h f).get? h' = if h = h' then (c.get? h').map f else c.get? h' := by
  obtain ⟨i⟩ := h
  obtain ⟨j⟩ := h'
  simp only [modify, get?, Handle.mk.injEq, Array.getElem?_setIfInBounds]
  by_cases hij : i = j
  · subst hij
    by_cases hi : i < c.slots.size
    · simp [hi]
    · simp [hi]
  · simp [hij]

@[simp]
theorem get?_map (f : Handle → α → α) (c : Column α) (h : Handle) :
    (c.map f).get? h = (c.get? h).map (f h) := by
  simp only [map, get?, Array.getElem?_mapIdx]
  cases c.slots[h.index]? with
  | none => rfl
  | some slot => cases slot <;> rfl

theorem mem_entries {c : Column α} {h : Handle} {a : α} :
    (h, a) ∈ c.entries ↔ c.get? h = some a := by
  obtain ⟨i⟩ := h
  simp only [entries, List.mem_filterMap, Prod.exists, Option.map_eq_some_iff, Prod.mk.injEq,
    Handle.mk.injEq, get?]
  constructor
  · rintro ⟨slot, j, hmem, b, rfl, rfl, rfl⟩
    have := List.mk_mem_zipIdx_iff_getElem?.mp hmem
    rw [Array.getElem?_toList] at this
    simp [this]
  · intro hc
    refine ⟨some a, i, ?_, a, rfl, rfl, rfl⟩
    rw [List.mk_mem_zipIdx_iff_getElem?, Array.getElem?_toList]
    cases hs : c.slots[i]? with
    | none => simp [hs] at hc
    | some slot => simpa [hs] using hc

/-- A walk over a column meets as many components as there are. -/
theorem length_entries (c : Column α) : c.entries.length = c.count := by
  rw [entries, List.length_filterMap_eq_countP, count, ← Array.countP_toList,
    ← List.zipIdx_map_fst 0 c.slots.toList, List.countP_map, List.zipIdx_map_fst]
  congr 1
  funext ⟨slot, i⟩
  cases slot <;> rfl

/-- A changed column holds what each component changes into, and nothing else. -/
theorem get?_of_change? {f : Handle → α → Option α} {c d : Column α} (hd : c.change? f = some d)
    (h : Handle) : d.get? h = (c.get? h).bind (f h) := by
  unfold change? at hd
  split at hd
  · rename_i hall
    cases hd
    rw [get?_map]
    cases hc : c.get? h with
    | none => rfl
    | some a =>
      have := List.all_eq_true.mp hall (h, a) (mem_entries.mpr hc)
      obtain ⟨b, hb⟩ := Option.isSome_iff_exists.mp this
      simp [hb]
  · exact absurd hd (by simp)

/-- A column cannot be changed exactly when some component in it cannot. -/
theorem change?_eq_none_iff {f : Handle → α → Option α} {c : Column α} :
    c.change? f = none ↔ ∃ h a, c.get? h = some a ∧ f h a = none := by
  unfold change?
  split
  · rename_i hall
    refine iff_of_false (by simp) ?_
    rintro ⟨h, a, hc, hf⟩
    have := List.all_eq_true.mp hall (h, a) (mem_entries.mpr hc)
    simp [hf] at this
  · rename_i hall
    refine iff_of_true rfl ?_
    simp only [List.all_eq_true, Prod.forall, Classical.not_forall] at hall
    obtain ⟨h, a, hm, hf⟩ := hall
    exact ⟨h, a, mem_entries.mp hm, by simpa using hf⟩

/-- A walk over a column meets the handles in ascending order, each once. -/
theorem entries_ascending (c : Column α) :
    c.entries.Pairwise fun x y => x.1.index < y.1.index := by
  refine List.Pairwise.filterMap _ (R := fun x y : Option α × Nat => x.2 < y.2) ?_ ?_
  · rintro ⟨s, i⟩ ⟨t, j⟩ hij x hx y hy
    simp only [Option.map_eq_some_iff] at hx hy
    obtain ⟨a, -, rfl⟩ := hx
    obtain ⟨b, -, rfl⟩ := hy
    exact hij
  · have : (c.slots.toList.zipIdx.map Prod.snd).Pairwise (· < ·) := by
      rw [List.zipIdx_map_snd]
      exact List.pairwise_lt_range'
    exact List.pairwise_map.mp this

end Column

end Skirmish

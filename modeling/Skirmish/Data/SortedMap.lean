/-!
# Maps in the order of their keys

A finite map held as the list of its bindings, ascending by key. The order is part of the type, so
two maps with the same look-ups are the same map (`SortedMap.ext_get?`), and a walk over the
bindings goes from the least key to the greatest. What each operation does is said through `get?`
alone: `get?_insert`, `get?_erase`, `get?_modify`, `get?_map`.
-/

namespace Skirmish

/-- A type whose values are put in order by a number of their own. -/
class Ranked (κ : Type) where
  rank : κ → Nat
  rank_inj : ∀ {a b : κ}, rank a = rank b → a = b

export Ranked (rank rank_inj)

instance : Ranked Nat := ⟨id, id⟩

instance : Ranked UInt8 := ⟨UInt8.toNat, UInt8.toNat_inj.mp⟩

instance : Ranked UInt32 := ⟨UInt32.toNat, UInt32.toNat_inj.mp⟩

/-- Ascending by key, each key at most once. -/
def Ascending {κ α : Type} [Ranked κ] (entries : List (κ × α)) : Prop :=
  entries.Pairwise fun a b => rank a.1 < rank b.1

structure SortedMap (κ α : Type) [Ranked κ] where
  /-- The bindings, ascending by key. -/
  toList : List (κ × α)
  ascending : Ascending toList

namespace SortedMap

variable {κ α β : Type} [Ranked κ] [DecidableEq κ]

instance [DecidableEq α] : DecidableEq (SortedMap κ α) := fun m n =>
  decidable_of_iff (m.toList = n.toList) (by cases m; cases n; simp)

/-! ## On lists of bindings -/

def lookup (k : κ) : List (κ × α) → Option α
  | [] => none
  | (j, a) :: rest => if j = k then some a else lookup k rest

/-- Puts a binding in its place, over an older one of the same key. -/
def put (k : κ) (a : α) : List (κ × α) → List (κ × α)
  | [] => [(k, a)]
  | (j, b) :: rest =>
    if rank k < rank j then (k, a) :: (j, b) :: rest
    else if j = k then (k, a) :: rest
    else (j, b) :: put k a rest

def drop (k : κ) (entries : List (κ × α)) : List (κ × α) :=
  entries.filter fun e => e.1 ≠ k

theorem lookup_eq_some_iff {entries : List (κ × α)} (h : Ascending entries) {k : κ} {a : α} :
    lookup k entries = some a ↔ (k, a) ∈ entries := by
  induction entries with
  | nil => simp [lookup]
  | cons e rest ih =>
    obtain ⟨j, b⟩ := e
    have hr := List.pairwise_cons.mp h
    by_cases hj : j = k
    · subst hj
      simp only [lookup, if_true, Option.some.injEq, List.mem_cons, Prod.mk.injEq, true_and]
      refine ⟨fun e => .inl e.symm, fun e => e.elim Eq.symm fun m => ?_⟩
      exact absurd (hr.1 _ m) (Nat.lt_irrefl _)
    · simp [lookup, hj, ih hr.2, Ne.symm hj]

theorem mem_put {k : κ} {a : α} {entries : List (κ × α)} {e : κ × α} (h : e ∈ put k a entries) :
    e = (k, a) ∨ e ∈ entries := by
  induction entries with
  | nil => simpa [put] using h
  | cons d rest ih =>
    obtain ⟨j, b⟩ := d
    unfold put at h
    split at h
    · simpa using h
    · split at h
      · rcases List.mem_cons.mp h with h | h
        · exact .inl h
        · exact .inr (List.mem_cons_of_mem _ h)
      · rcases List.mem_cons.mp h with h | h
        · exact .inr (h ▸ List.mem_cons_self)
        · exact (ih h).imp_right (List.mem_cons_of_mem _)

theorem ascending_put {k : κ} {a : α} {entries : List (κ × α)} (h : Ascending entries) :
    Ascending (put k a entries) := by
  induction entries with
  | nil => exact List.pairwise_singleton _ _
  | cons d rest ih =>
    obtain ⟨j, b⟩ := d
    have hr := List.pairwise_cons.mp h
    unfold put
    split
    · rename_i hlt
      refine List.pairwise_cons.mpr ⟨fun e he => ?_, h⟩
      rcases List.mem_cons.mp he with rfl | he
      · exact hlt
      · exact Nat.lt_trans hlt (hr.1 e he)
    · split
      · rename_i heq
        exact List.pairwise_cons.mpr ⟨fun e he => by subst heq; exact hr.1 e he, hr.2⟩
      · rename_i hlt hne
        -- the new entry goes somewhere into the rest, all of which comes after the first
        refine List.pairwise_cons.mpr ⟨fun e he => ?_, ih hr.2⟩
        rcases mem_put he with rfl | he
        · have : rank j ≠ rank k := fun e => hne (rank_inj e)
          show rank j < rank k
          omega
        · exact hr.1 e he

omit [DecidableEq κ] in
theorem ascending_filter {entries : List (κ × α)} (h : Ascending entries) (p : κ × α → Bool) :
    Ascending (entries.filter p) :=
  List.Pairwise.sublist List.filter_sublist h

theorem lookup_put (k k' : κ) (a : α) (entries : List (κ × α)) :
    lookup k' (put k a entries) = if k = k' then some a else lookup k' entries := by
  induction entries with
  | nil => rfl
  | cons d rest ih =>
    obtain ⟨j, b⟩ := d
    unfold put
    split
    · rfl
    · split
      · rename_i heq
        subst heq
        simp only [lookup]
        split <;> rfl
      · rename_i hne
        simp only [lookup, ih]
        by_cases hk : k = k'
        · subst hk; simp [hne]
        · simp [hk]

omit [Ranked κ] in
theorem lookup_drop (k k' : κ) (entries : List (κ × α)) :
    lookup k' (drop k entries) = if k = k' then none else lookup k' entries := by
  induction entries with
  | nil => simp [drop, lookup]
  | cons d rest ih =>
    obtain ⟨j, b⟩ := d
    by_cases hj : j = k
    · subst hj
      rw [drop, List.filter_cons_of_neg (by simp), ← drop, ih, lookup]
      split <;> rfl
    · rw [drop, List.filter_cons_of_pos (by simpa using hj), ← drop, lookup, ih, lookup]
      by_cases hk : k = k'
      · subst hk; simp [hj]
      · simp [hk]

/-! ## The operations -/

def empty : SortedMap κ α := ⟨[], List.Pairwise.nil⟩

instance : EmptyCollection (SortedMap κ α) := ⟨empty⟩

instance : Inhabited (SortedMap κ α) := ⟨empty⟩

def get? (m : SortedMap κ α) (k : κ) : Option α := lookup k m.toList

def contains (m : SortedMap κ α) (k : κ) : Bool := (m.get? k).isSome

def size (m : SortedMap κ α) : Nat := m.toList.length

def isEmpty (m : SortedMap κ α) : Bool := m.toList.isEmpty

/-- The keys, ascending. -/
def keys (m : SortedMap κ α) : List κ := m.toList.map Prod.fst

/-- The values, ascending by key. -/
def values (m : SortedMap κ α) : List α := m.toList.map Prod.snd

def insert (m : SortedMap κ α) (k : κ) (a : α) : SortedMap κ α :=
  ⟨put k a m.toList, ascending_put m.ascending⟩

def erase (m : SortedMap κ α) (k : κ) : SortedMap κ α :=
  ⟨drop k m.toList, ascending_filter m.ascending _⟩

/-- Every value changed, the keys kept. -/
def map (f : κ → α → β) (m : SortedMap κ α) : SortedMap κ β :=
  ⟨m.toList.map fun e => (e.1, f e.1 e.2), by
    unfold Ascending
    rw [List.pairwise_map]
    exact m.ascending⟩

/-- The value of one key changed, if it has one. -/
def modify (m : SortedMap κ α) (k : κ) (f : α → α) : SortedMap κ α :=
  m.map fun j a => if j = k then f a else a

/-! ## What the operations do to the look-ups -/

theorem get?_eq_some_iff {m : SortedMap κ α} {k : κ} {a : α} :
    m.get? k = some a ↔ (k, a) ∈ m.toList :=
  lookup_eq_some_iff m.ascending

/-- The bindings before and behind that of a key belong to other keys. -/
theorem exists_split {m : SortedMap κ α} {k : κ} {a : α} (h : m.get? k = some a) :
    ∃ before behind, m.toList = before ++ (k, a) :: behind ∧ ∀ e ∈ before ++ behind, e.1 ≠ k := by
  obtain ⟨before, behind, hlist⟩ := List.append_of_mem (get?_eq_some_iff.mp h)
  have hasc := m.ascending
  rw [Ascending, hlist, List.pairwise_append, List.pairwise_cons] at hasc
  obtain ⟨-, ⟨hbehind, -⟩, hbefore⟩ := hasc
  refine ⟨before, behind, hlist, fun e he heq => ?_⟩
  rcases List.mem_append.mp he with he | he
  · have hlt := hbefore e he (k, a) List.mem_cons_self
    rw [heq] at hlt
    exact Nat.lt_irrefl _ hlt
  · have hlt := hbehind e he
    rw [heq] at hlt
    exact Nat.lt_irrefl _ hlt

@[simp]
theorem get?_empty (k : κ) : (∅ : SortedMap κ α).get? k = none := rfl

theorem get?_insert (m : SortedMap κ α) (k k' : κ) (a : α) :
    (m.insert k a).get? k' = if k = k' then some a else m.get? k' :=
  lookup_put k k' a m.toList

@[simp]
theorem get?_insert_self (m : SortedMap κ α) (k : κ) (a : α) :
    (m.insert k a).get? k = some a := by
  rw [get?_insert, if_pos rfl]

theorem get?_erase (m : SortedMap κ α) (k k' : κ) :
    (m.erase k).get? k' = if k = k' then none else m.get? k' :=
  lookup_drop k k' m.toList

theorem get?_erase_of_ne (m : SortedMap κ α) {k k' : κ} (h : k' ≠ k) :
    (m.erase k).get? k' = m.get? k' := by
  rw [get?_erase, if_neg (Ne.symm h)]

@[simp]
theorem get?_map (f : κ → α → β) (m : SortedMap κ α) (k : κ) :
    (m.map f).get? k = (m.get? k).map (f k) := by
  show lookup k (m.toList.map fun e => (e.1, f e.1 e.2)) = (lookup k m.toList).map (f k)
  induction m.toList with
  | nil => rfl
  | cons e rest ih =>
    simp only [List.map_cons, lookup]
    split
    · rename_i h; rw [h]; rfl
    · exact ih

theorem get?_modify (m : SortedMap κ α) (k k' : κ) (f : α → α) :
    (m.modify k f).get? k' = if k = k' then (m.get? k').map f else m.get? k' := by
  rw [modify, get?_map]
  by_cases h : k = k'
  · subst h; simp
  · simp [h, Ne.symm h]

theorem mem_keys_iff {m : SortedMap κ α} {k : κ} : k ∈ m.keys ↔ (m.get? k).isSome = true := by
  rw [Option.isSome_iff_exists, keys, List.mem_map]
  constructor
  · intro hex
    obtain ⟨e, he, rfl⟩ := hex
    exact ⟨e.2, get?_eq_some_iff.mpr he⟩
  · intro hex
    obtain ⟨a, ha⟩ := hex
    exact ⟨(k, a), get?_eq_some_iff.mp ha, rfl⟩

/-! ## Equality -/

omit [DecidableEq κ] in
theorem ext {m n : SortedMap κ α} (h : m.toList = n.toList) : m = n := by
  cases m; cases n; cases h; rfl

omit [DecidableEq κ] in
/-- The order is determined by the bindings, so the list is. -/
theorem eq_of_ascending_of_mem_iff {xs ys : List (κ × α)} (hx : Ascending xs) (hy : Ascending ys)
    (h : ∀ e, e ∈ xs ↔ e ∈ ys) : xs = ys := by
  induction xs generalizing ys with
  | nil =>
    cases ys with
    | nil => rfl
    | cons y _ => exact absurd ((h y).mpr List.mem_cons_self) (by simp)
  | cons x xs ih =>
    cases ys with
    | nil => exact absurd ((h x).mp List.mem_cons_self) (by simp)
    | cons y ys =>
      have hx' := List.pairwise_cons.mp hx
      have hy' := List.pairwise_cons.mp hy
      -- each of the two heads is the least of its list, and each is in the other list
      have hxy : x = y := by
        rcases List.mem_cons.mp ((h x).mp List.mem_cons_self) with e | hx1
        · exact e
        · rcases List.mem_cons.mp ((h y).mpr List.mem_cons_self) with e | hy1
          · exact e.symm
          · exact absurd (Nat.lt_trans (hx'.1 y hy1) (hy'.1 x hx1)) (Nat.lt_irrefl _)
      subst hxy
      congr 1
      refine ih hx'.2 hy'.2 fun e => ⟨fun he => ?_, fun he => ?_⟩
      · rcases List.mem_cons.mp ((h e).mp (List.mem_cons_of_mem _ he)) with rfl | h1
        · exact absurd (hx'.1 _ he) (Nat.lt_irrefl _)
        · exact h1
      · rcases List.mem_cons.mp ((h e).mpr (List.mem_cons_of_mem _ he)) with rfl | h1
        · exact absurd (hy'.1 _ he) (Nat.lt_irrefl _)
        · exact h1

/-- Two maps with the same look-ups are the same map. -/
theorem ext_get? {m n : SortedMap κ α} (h : ∀ k, m.get? k = n.get? k) : m = n := by
  refine ext (eq_of_ascending_of_mem_iff m.ascending n.ascending fun e => ?_)
  rw [← get?_eq_some_iff, ← get?_eq_some_iff, h]

/-- A change that leaves the value of the key as it is changes nothing. -/
theorem modify_eq_self {m : SortedMap κ α} {k : κ} {f : α → α}
    (h : ∀ a, m.get? k = some a → f a = a) : m.modify k f = m := by
  refine ext_get? fun j => ?_
  rw [get?_modify]
  split
  · rename_i hk
    subst hk
    cases hget : m.get? k with
    | none => rfl
    | some a => rw [Option.map_some, h a hget]
  · rfl

end SortedMap

end Skirmish

import Skirmish.Entity.Column
import Skirmish.Entity.Pool
/-!
# Entities and their components

A registry gives out handles and keeps one column for each type of component that was ever written.
A column that is not there reads as an empty one. Writing a component of a dead entity does nothing
(`insert`), and an entity loses all its components when it is destroyed, so a handle that is used
again starts with none. `store` writes to a column whether or not the entity is alive.

All look-ups go through `get?`, and there is one lemma for each operation on it.
-/

namespace Skirmish

variable {κ : Type} {Value : κ → Type}

/-- The columns that exist, each with its type. -/
abbrev Columns (Value : κ → Type) := List ((c : κ) × Column (Value c))

namespace Columns

variable [DecidableEq κ]

def find? (c : κ) : Columns Value → Option (Column (Value c))
  | [] => none
  | ⟨d, column⟩ :: rest => if h : d = c then some (h ▸ column) else find? c rest

/-- Replaces the column of a type, or adds it. -/
def put (c : κ) (column : Column (Value c)) : Columns Value → Columns Value
  | [] => [⟨c, column⟩]
  | ⟨d, old⟩ :: rest => if d = c then ⟨c, column⟩ :: rest else ⟨d, old⟩ :: put c column rest

@[simp]
theorem find?_put_self (c : κ) (column : Column (Value c)) (cs : Columns Value) :
    find? c (put c column cs) = some column := by
  induction cs with
  | nil => simp [put, find?]
  | cons e rest ih =>
    obtain ⟨d, old⟩ := e
    unfold put
    split
    · simp [find?]
    · rename_i h
      simp [find?, h, ih]

theorem find?_put_of_ne {c d : κ} (h : c ≠ d) (column : Column (Value c)) (cs : Columns Value) :
    find? d (put c column cs) = find? d cs := by
  induction cs with
  | nil => simp [put, find?, h]
  | cons e rest ih =>
    obtain ⟨b, old⟩ := e
    unfold put
    split
    · rename_i hb
      subst hb
      simp [find?, h]
    · simp only [find?, ih]

/-- Every column without the component of one entity. -/
def eraseEntity (h : Handle) (cs : Columns Value) : Columns Value :=
  cs.map fun ⟨c, column⟩ => ⟨c, column.erase h⟩

theorem find?_eraseEntity (c : κ) (h : Handle) (cs : Columns Value) :
    find? c (eraseEntity h cs) = (find? c cs).map (Column.erase · h) := by
  induction cs with
  | nil => rfl
  | cons e rest ih =>
    obtain ⟨d, old⟩ := e
    show find? c (⟨d, old.erase h⟩ :: eraseEntity h rest) = _
    by_cases hd : d = c
    · subst hd
      simp [find?]
    · simp [find?, hd, ih]

end Columns

structure Registry (Value : κ → Type) where
  pool : Pool
  columns : Columns Value

namespace Registry

def empty : Registry Value := ⟨.empty, []⟩

/-! ## Entities -/

def isAlive (r : Registry Value) (h : Handle) : Bool := r.pool.isLive h

/-- How many entities are alive. -/
def population (r : Registry Value) : Nat := r.pool.population

/-- The live entities, ascending. -/
def entities (r : Registry Value) : List Handle := r.pool.handles

def spawn (r : Registry Value) : Handle × Registry Value :=
  (r.pool.take.1, { r with pool := r.pool.take.2 })

/-- Takes all components from a live entity and its handle back. -/
def destroy (r : Registry Value) (h : Handle) : Registry Value :=
  if r.isAlive h then ⟨r.pool.giveBack h, r.columns.eraseEntity h⟩ else r

@[simp]
theorem isAlive_empty (h : Handle) : (empty : Registry Value).isAlive h = false := rfl

theorem isAlive_destroy (r : Registry Value) (h h' : Handle) :
    (r.destroy h).isAlive h' = if h = h' then false else r.isAlive h' := by
  by_cases ha : r.isAlive h = true
  · simp only [destroy, ha, if_true]
    exact Pool.isLive_giveBack _ _ _
  · by_cases hh : h = h'
    · subst hh
      rw [destroy, if_neg ha, if_pos rfl]
      simpa using ha
    · simp [destroy, ha, hh]

variable [DecidableEq κ]

/-! ## Columns -/

def column? (r : Registry Value) (c : κ) : Option (Column (Value c)) := r.columns.find? c

/-- The column of a type, empty if there is none. -/
def column (r : Registry Value) (c : κ) : Column (Value c) := (r.column? c).getD .empty

def setColumn (r : Registry Value) (c : κ) (column : Column (Value c)) : Registry Value :=
  { r with columns := r.columns.put c column }

/-- Makes sure that there is a column of a type. -/
def register (r : Registry Value) (c : κ) : Registry Value := r.setColumn c (r.column c)

/-! ## Components -/

def get? (r : Registry Value) (c : κ) (h : Handle) : Option (Value c) := (r.column c).get? h

def has (r : Registry Value) (c : κ) (h : Handle) : Bool := (r.get? c h).isSome

/-- Writes to a column without asking whether the entity is alive. -/
def store (r : Registry Value) (c : κ) (h : Handle) (v : Value c) : Registry Value :=
  r.setColumn c ((r.column c).insert h v)

/-- Gives a component to a live entity, in place of an older one. -/
def insert (r : Registry Value) (c : κ) (h : Handle) (v : Value c) : Registry Value :=
  if r.isAlive h then r.store c h v else r

/-- Changes a component where there is one. -/
def modify (r : Registry Value) (c : κ) (h : Handle) (f : Value c → Value c) : Registry Value :=
  match r.column? c with
  | none => r
  | some column => r.setColumn c (column.modify h f)

/-- Takes a component away where there is one. -/
def remove (r : Registry Value) (c : κ) (h : Handle) : Registry Value :=
  match r.column? c with
  | none => r
  | some column => r.setColumn c (column.erase h)

/-- Changes every component of a type. -/
def mapColumn (r : Registry Value) (c : κ) (f : Handle → Value c → Value c) : Registry Value :=
  r.setColumn c ((r.column c).map f)

/-- The components of a type, ascending by handle. -/
def entries (r : Registry Value) (c : κ) : List (Handle × Value c) := (r.column c).entries

/-! ## What the operations do to the columns -/

@[simp]
theorem column_empty (c : κ) : (empty : Registry Value).column c = .empty := rfl

@[simp]
theorem column_setColumn_self (r : Registry Value) (c : κ) (column : Column (Value c)) :
    (r.setColumn c column).column c = column := by
  simp [setColumn, Registry.column, column?]

theorem column_setColumn_of_ne (r : Registry Value) {c d : κ} (h : c ≠ d)
    (column : Column (Value c)) : (r.setColumn c column).column d = r.column d := by
  simp [setColumn, Registry.column, column?, Columns.find?_put_of_ne h]

@[simp]
theorem column_register (r : Registry Value) (c d : κ) : (r.register c).column d = r.column d := by
  by_cases h : c = d
  · subst h; simp [register]
  · exact column_setColumn_of_ne r h _

@[simp]
theorem column_spawn (r : Registry Value) (c : κ) : r.spawn.2.column c = r.column c := rfl

theorem column_destroy_of_isAlive {r : Registry Value} {h : Handle} (ha : r.isAlive h = true)
    (c : κ) : (r.destroy h).column c = (r.column c).erase h := by
  simp only [destroy, ha, if_true, Registry.column, column?, Columns.find?_eraseEntity]
  cases r.columns.find? c with
  | none => rfl
  | some column => rfl

/-! ## What the operations do to the look-ups -/

@[simp]
theorem get?_empty (c : κ) (h : Handle) : (empty : Registry Value).get? c h = none := rfl

@[simp]
theorem get?_spawn (r : Registry Value) (c : κ) (h : Handle) :
    r.spawn.2.get? c h = r.get? c h := rfl

@[simp]
theorem get?_register (r : Registry Value) (c d : κ) (h : Handle) :
    (r.register c).get? d h = r.get? d h := by
  simp [get?]

theorem get?_destroy (r : Registry Value) (c : κ) (h h' : Handle) :
    (r.destroy h).get? c h' =
      if r.isAlive h = true ∧ h = h' then none else r.get? c h' := by
  by_cases ha : r.isAlive h = true
  · simp only [get?, column_destroy_of_isAlive ha, Column.get?_erase, ha, true_and]
  · simp [destroy, ha]

@[simp]
theorem get?_store_self (r : Registry Value) (c : κ) (h : Handle) (v : Value c) :
    (r.store c h v).get? c h = some v := by
  simp [store, get?]

theorem get?_store_of_ne (r : Registry Value) {c d : κ} {h h' : Handle} (v : Value c)
    (hne : c ≠ d ∨ h ≠ h') : (r.store c h v).get? d h' = r.get? d h' := by
  by_cases hcd : c = d
  · subst hcd
    have hh : h ≠ h' := hne.resolve_left (fun n => n rfl)
    simp [store, get?, Column.get?_insert, hh]
  · simp [store, get?, column_setColumn_of_ne r hcd]

theorem get?_insert_self {r : Registry Value} {h : Handle} (ha : r.isAlive h = true) (c : κ)
    (v : Value c) : (r.insert c h v).get? c h = some v := by
  simp [insert, ha]

theorem get?_insert_of_ne (r : Registry Value) {c d : κ} {h h' : Handle} (v : Value c)
    (hne : c ≠ d ∨ h ≠ h') : (r.insert c h v).get? d h' = r.get? d h' := by
  unfold insert
  split
  · exact get?_store_of_ne r v hne
  · rfl

theorem get?_modify_self (r : Registry Value) (c : κ) (h : Handle) (f : Value c → Value c) :
    (r.modify c h f).get? c h = (r.get? c h).map f := by
  unfold modify
  split
  · rename_i hc
    simp [get?, column, hc]
  · rename_i column hc
    have : r.column c = column := by simp [Registry.column, hc]
    simp [get?, this, Column.get?_modify]

theorem get?_remove_self (r : Registry Value) (c : κ) (h : Handle) :
    (r.remove c h).get? c h = none := by
  unfold remove
  split
  · rename_i hc
    simp [get?, column, hc]
  · simp [get?, Column.get?_erase]

theorem mem_entries {r : Registry Value} {c : κ} {h : Handle} {v : Value c} :
    (h, v) ∈ r.entries c ↔ r.get? c h = some v :=
  Column.mem_entries

/-! ## What the operations do to the live entities -/

@[simp]
theorem isAlive_store (r : Registry Value) (c : κ) (h h' : Handle) (v : Value c) :
    (r.store c h v).isAlive h' = r.isAlive h' := rfl

@[simp]
theorem isAlive_insert (r : Registry Value) (c : κ) (h h' : Handle) (v : Value c) :
    (r.insert c h v).isAlive h' = r.isAlive h' := by
  unfold insert
  split <;> rfl

end Registry

end Skirmish

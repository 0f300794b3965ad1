import Skirmish.Entity.Registry
/-!
# Calls on a registry

Everything that can be asked of a registry, as data. Each call has an answer of its own type, and
`Registry.call` gives the answer together with the registry afterwards. A walk over a column answers
with what it meets on its way.
-/

namespace Skirmish.Registry

variable {κ : Type} {Value : κ → Type}

/-- What can be asked of a registry. -/
inductive Call (Value : κ → Type) where
  | spawn
  | destroy (h : Handle)
  | isAlive (h : Handle)
  | population
  | entities
  | insert (c : κ) (h : Handle) (v : Value c)
  | get (c : κ) (h : Handle)
  | has (c : κ) (h : Handle)
  /-- Looks at a component and changes it where it is. -/
  | modify (c : κ) (h : Handle) (f : Value c → Value c)
  | remove (c : κ) (h : Handle)
  | register (c : κ)
  /-- Looks at a whole column. -/
  | column (c : κ)
  /-- Walks over the components of a type. -/
  | entries (c : κ)
  /-- Writes to a column, whoever is alive. -/
  | store (c : κ) (h : Handle) (v : Value c)
  /-- Walks over the components of a type and changes each. -/
  | overwrite (c : κ) (f : Handle → Value c → Value c)

/-- The type of the answer to a call. -/
def Call.Answer : Call Value → Type
  | spawn => Handle
  | destroy _ => Bool
  | isAlive _ => Bool
  | population => Nat
  | entities => List Handle
  | insert _ _ _ => Unit
  | get c _ => Option (Value c)
  | has _ _ => Bool
  | modify c _ _ => Option (Value c)
  | remove c _ => Option (Value c)
  | register _ => Unit
  | column c => Option (Column (Value c))
  | entries c => List (Handle × Value c)
  | store c _ _ => Value c
  | overwrite c _ => List (Handle × Value c)

variable [DecidableEq κ]

/-- What a call is answered, and the registry afterwards. -/
def call (r : Registry Value) : (q : Call Value) → q.Answer × Registry Value
  | .spawn => r.spawn
  | .destroy h => if r.isAlive h then (true, r.destroy h) else (false, r)
  | .isAlive h => (r.isAlive h, r)
  | .population => (r.population, r)
  | .entities => (r.entities, r)
  | .insert c h v => ((), r.insert c h v)
  | .get c h => (r.get? c h, r)
  | .has c h => (r.has c h, r)
  | .modify c h f => (r.get? c h, r.modify c h f)
  | .remove c h => (r.get? c h, r.remove c h)
  | .register c => ((), r.register c)
  | .column c => (r.column? c, r)
  | .entries c => (r.entries c, r)
  | .store c h v => (v, r.store c h v)
  | .overwrite c f => (r.entries c, r.mapColumn c f)

theorem call_destroy_of_dead {r : Registry Value} {h : Handle} (hdead : ¬ r.isAlive h = true) :
    r.call (.destroy h) = (false, r) :=
  if_neg hdead

/-- Whoever was alive is destroyed. -/
theorem call_destroy (r : Registry Value) (h : Handle) :
    r.call (.destroy h) = (r.isAlive h, r.destroy h) := by
  by_cases ha : r.isAlive h = true
  · rw [ha]
    exact if_pos ha
  · rw [call_destroy_of_dead ha, Bool.eq_false_iff.mpr ha, destroy, if_neg ha]

/-- A call with its answer. -/
abbrev Record (Value : κ → Type) := (q : Call Value) × q.Answer

/-- The log of several calls, one after the other, and the registry afterwards. -/
def run (r : Registry Value) : List (Call Value) → List (Record Value) × Registry Value
  | [] => ([], r)
  | q :: rest =>
    let (log, last) := run (r.call q).2 rest
    (⟨q, (r.call q).1⟩ :: log, last)

theorem calls_of_run (r : Registry Value) (calls : List (Call Value)) :
    (r.run calls).1.map Sigma.fst = calls := by
  induction calls generalizing r with
  | nil => rfl
  | cons q rest ih =>
    show q :: ((r.call q).2.run rest).1.map Sigma.fst = q :: rest
    rw [ih]

/-- The last call comes on top of all others. -/
theorem run_snoc (r : Registry Value) (calls : List (Call Value)) (q : Call Value) :
    r.run (calls ++ [q]) =
      ((r.run calls).1 ++ [⟨q, ((r.run calls).2.call q).1⟩], ((r.run calls).2.call q).2) := by
  induction calls generalizing r with
  | nil => rfl
  | cons d rest ih =>
    rw [List.cons_append, run, ih]
    rfl

end Skirmish.Registry

import Skirmish.Proofs.Recycling
/-!
# No index goes out of bounds

The tables of a registry are written to at the index of a handle. A registry that checks each such
index, and that the numbers of handles have thirty-two bits and the head count does not fall below
zero, stops where one of the checks fails (`Registry.call?`). Whatever is asked of a new registry, it
never stops, as long as there are numbers left (`Registry.Reached.inBounds`). So nothing is lost by
not checking.
-/

namespace Skirmish

/-! ## The pool -/

namespace Pool

variable {past : List Change} {p : Pool}

/-- Hands out a handle that has an entry in the table. A new number has one by then, and the next is
still one of thirty-two bits. -/
def take? (p : Pool) : Option (Handle × Pool) :=
  match p.free with
  | h :: _ => if h.index < p.live.size then some p.take else none
  | [] =>
    if p.next + 1 < UInt32.size ∧ p.next < (p.live.push false).size then some p.take else none

/-- Takes back a handle that has an entry in the table and is among those that are counted. -/
def giveBack? (p : Pool) (h : Handle) : Option Pool :=
  if h.index < p.live.size ∧ 0 < p.population then some (p.giveBack h) else none

theorem next_take (p : Pool) : p.next ≤ p.take.2.next := by
  unfold take
  split
  · exact Nat.le_refl _
  · exact Nat.le_succ _

theorem take?_eq (ha : Accounts past p) (h : p.take.2.next < UInt32.size) :
    p.take? = some p.take := by
  cases hfree : p.free with
  | nil =>
    have hnext : p.take.2.next = p.next + 1 := by simp [take, hfree]
    have hroom : p.next < (p.live.push false).size := by
      rw [Array.size_push, ha.valid.next_eq]
      exact Nat.lt_succ_self _
    simp only [take?, hfree]
    rw [if_pos ⟨hnext ▸ h, hroom⟩]
  | cons k rest =>
    have hk := ((ha.valid.mem_free k).mp (hfree ▸ List.mem_cons_self)).1
    simp only [take?, hfree]
    rw [if_pos hk]

theorem giveBack?_eq (ha : Accounts past p) {h : Handle} (hl : p.isLive h = true) :
    p.giveBack? h = some (p.giveBack h) := by
  have hmem : true ∈ p.live := Array.mem_of_getElem? (flag_of_isLive hl)
  have hcount : 0 < p.population := by
    rw [ha.population]
    exact Array.count_pos_iff.mpr hmem
  rw [giveBack?, if_pos ⟨index_lt_of_isLive hl, hcount⟩]

end Pool

namespace Column

variable {α : Type}

/-- Writes to a slot that is there once the column has grown. -/
def insert? (c : Column α) (h : Handle) (a : α) : Option (Column α) :=
  if h.index < (c.grown h).size then some (c.insert h a) else none

theorem insert?_eq (c : Column α) (h : Handle) (a : α) : c.insert? h a = some (c.insert h a) := by
  have hsize : h.index < (c.grown h).size := by
    rw [grown, Array.size_append, Array.size_replicate]
    omega
  rw [insert?, if_pos hsize]

end Column

/-! ## The registry -/

namespace Registry

variable {κ : Type} {Value : κ → Type} [DecidableEq κ] {r : Registry Value}

/-- A call that stops where an index is out of bounds. Looking up and taking away are no matter of
bounds: what has no slot is not there. -/
def call? (r : Registry Value) : (q : Call Value) → Option (q.Answer × Registry Value)
  | .spawn => r.pool.take?.map fun (h, pool) => (h, { r with pool })
  | .destroy h =>
    if r.isAlive h then
      (r.pool.giveBack? h).map fun pool => (true, ⟨pool, r.columns.eraseEntity h⟩)
    else some (false, r)
  | .insert c h v =>
    if r.isAlive h then ((r.column c).insert? h v).map fun column => ((), r.setColumn c column)
    else some ((), r)
  | .store c h v => ((r.column c).insert? h v).map fun column => (v, r.setColumn c column)
  | q => some (r.call q)

/-- Calls one after the other, as long as none stops. -/
def run? (r : Registry Value) : List (Call Value) → Option (List (Record Value) × Registry Value)
  | [] => some ([], r)
  | q :: rest => do
    let (answer, next) ← r.call? q
    let (log, last) ← next.run? rest
    return (⟨q, answer⟩ :: log, last)

theorem next_call (r : Registry Value) (q : Call Value) :
    r.pool.next ≤ (r.call q).2.pool.next := by
  rcases r.change_cases q with ⟨-, hpool⟩ | ⟨h, -, -, hpool⟩ | ⟨-, hpool⟩
  · rw [hpool]
    exact r.pool.next_take
  · rw [hpool]
    exact Nat.le_refl _
  · exact Nat.le_of_eq (congrArg Pool.next hpool.symm)

theorem next_run (calls : List (Call Value)) (r : Registry Value) :
    r.pool.next ≤ (r.run calls).2.pool.next := by
  induction calls generalizing r with
  | nil => exact Nat.le_refl _
  | cons q rest ih => exact Nat.le_trans (r.next_call q) (ih _)

/-- **No call goes out of bounds on a registry that accounts for what was done with handles.** -/
theorem call?_eq {log : List (Record Value)} (ha : Pool.Accounts (changes log) r.pool)
    {q : Call Value} (h : (r.call q).2.pool.next < UInt32.size) : r.call? q = some (r.call q) := by
  -- the only sums are in the pool and in the columns, and neither goes out of bounds
  cases q with
  | spawn =>
    rw [call?, Pool.take?_eq ha h]
    rfl
  | destroy k =>
    by_cases hk : r.isAlive k = true
    · rw [call?, if_pos hk, Pool.giveBack?_eq ha hk, call_destroy, hk, destroy, if_pos hk]
      rfl
    · rw [call?, if_neg hk, call_destroy_of_dead hk]
      rfl
  | insert c k v =>
    rw [call?, Column.insert?_eq, call, insert]
    split <;> rfl
  | store c k v =>
    rw [call?, Column.insert?_eq]
    rfl
  | isAlive | population | entities | get | has | modify | remove | register | column | entries
  | overwrite => rfl

/-- **Nothing goes out of bounds, call after call.** -/
theorem run?_eq {calls : List (Call Value)} {log : List (Record Value)}
    (ha : Pool.Accounts (changes log) r.pool) (h : (r.run calls).2.pool.next < UInt32.size) :
    r.run? calls = some (r.run calls) := by
  induction calls generalizing r log with
  | nil => rfl
  | cons q rest ih =>
    have hcall := Nat.lt_of_le_of_lt (next_run rest (r.call q).2) h
    rw [run?, call?_eq ha hcall]
    simp only [Option.bind_eq_bind, Option.bind_some]
    rw [ih (accounts_call ha q) h]
    rfl

/-! ## What calls lead to -/

/-- Calls lead from a new registry to this one. -/
def Reached (r : Registry Value) : Prop :=
  ∃ calls, ((empty : Registry Value).run calls).2 = r

theorem reached_empty : (empty : Registry Value).Reached := ⟨[], rfl⟩

theorem Reached.call (h : r.Reached) (q : Call Value) : (r.call q).2.Reached := by
  obtain ⟨calls, rfl⟩ := h
  exact ⟨calls ++ [q], by rw [run_snoc]⟩

theorem Reached.destroyAll (h : r.Reached) (gone : List Handle) : (r.destroyAll gone).Reached := by
  induction gone generalizing r with
  | nil => exact h
  | cons k rest ih =>
    have hfirst := h.call (.destroy k)
    rw [call_destroy] at hfirst
    exact ih hfirst

/-- The registry is what calls on a new one lead to, and whatever is asked of it next stays in
bounds as long as there are numbers left. -/
structure InBounds (r : Registry Value) : Prop where
  reached : r.Reached
  run?_eq : ∀ calls, (r.run calls).2.pool.next < UInt32.size → r.run? calls = some (r.run calls)

theorem Reached.inBounds (h : r.Reached) : r.InBounds where
  reached := h
  run?_eq := by
    obtain ⟨past, rfl⟩ := h
    exact fun _ => Registry.run?_eq (accounts_run past)

end Registry

end Skirmish

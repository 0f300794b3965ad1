import Skirmish.Entity.Handle
/-!
# Which handles are in use

A pool hands out handles and takes them back. A handle that was given back is handed out again, the
last one first; a new number is used only when there is none to use again.
-/

namespace Skirmish

structure Pool where
  /-- The next new number. -/
  next : Nat
  /-- For every handle ever handed out, whether it is in use. -/
  live : Array Bool
  /-- The handles to use again, the last one given back in front. -/
  free : List Handle
  /-- How many handles are in use. -/
  population : Nat
deriving DecidableEq, Repr, Inhabited

namespace Pool

def empty : Pool := ⟨0, #[], [], 0⟩

def isLive (p : Pool) (h : Handle) : Bool := p.live[h.index]?.getD false

/-- The handles in use, ascending. -/
def handles (p : Pool) : List Handle :=
  p.live.toList.zipIdx.filterMap fun (live, i) => if live then some ⟨i⟩ else none

/-- Hands out a handle. -/
def take (p : Pool) : Handle × Pool :=
  match p.free with
  | h :: rest => (h, ⟨p.next, p.live.setIfInBounds h.index true, rest, p.population + 1⟩)
  | [] =>
    (⟨p.next⟩,
      ⟨p.next + 1, (p.live.push false).setIfInBounds p.next true, [], p.population + 1⟩)

/-- Takes back a handle that is in use. -/
def giveBack (p : Pool) (h : Handle) : Pool :=
  ⟨p.next, p.live.setIfInBounds h.index false, h :: p.free, p.population - 1⟩

/-! ## What the operations do to the handles in use -/

@[simp]
theorem isLive_empty (h : Handle) : empty.isLive h = false := rfl

theorem isLive_giveBack (p : Pool) (h h' : Handle) :
    (p.giveBack h).isLive h' = if h = h' then false else p.isLive h' := by
  obtain ⟨i⟩ := h
  obtain ⟨j⟩ := h'
  simp only [giveBack, isLive, Handle.mk.injEq, Array.getElem?_setIfInBounds]
  by_cases hij : i = j
  · subst hij
    by_cases hi : i < p.live.size <;> simp [hi]
  · simp [hij]

theorem mem_handles {p : Pool} {h : Handle} : h ∈ p.handles ↔ p.isLive h = true := by
  obtain ⟨i⟩ := h
  simp only [handles, List.mem_filterMap, Prod.exists, isLive]
  constructor
  · rintro ⟨live, j, hm, hl⟩
    have hg := List.mk_mem_zipIdx_iff_getElem?.mp hm
    rw [Array.getElem?_toList] at hg
    split at hl
    · rename_i hlive
      cases hl
      simp [hg, hlive]
    · cases hl
  · intro hl
    refine ⟨true, i, ?_, rfl⟩
    -- an entry beyond the table would be live without being there
    rw [List.mk_mem_zipIdx_iff_getElem?, Array.getElem?_toList]
    cases hg : p.live[i]? with
    | none => simp [hg] at hl
    | some live => simpa [hg] using hl

theorem handles_ascending (p : Pool) : p.handles.Pairwise fun a b => a.index < b.index := by
  refine List.Pairwise.filterMap _ (R := fun x y : Bool × Nat => x.2 < y.2) ?_ ?_
  · rintro ⟨s, i⟩ ⟨t, j⟩ hij x hx y hy
    simp only [Option.ite_none_right_eq_some, Option.some.injEq] at hx hy
    obtain ⟨-, rfl⟩ := hx
    obtain ⟨-, rfl⟩ := hy
    exact hij
  · have : (p.live.toList.zipIdx.map Prod.snd).Pairwise (· < ·) := by
      rw [List.zipIdx_map_snd]
      exact List.pairwise_lt_range'
    exact List.pairwise_map.mp this

end Pool

end Skirmish

import Skirmish.Data.SortedMap
/-!
# Handles

An entity is known inside the program by a number. Numbers are used again after their entity is
gone, and never leave the program: packets use network ids. A set of handles is kept in ascending
order, each handle once, whatever the order in which they were added.
-/

namespace Skirmish

structure Handle where
  index : Nat
deriving DecidableEq, Repr, Inhabited

instance : Ranked Handle := ⟨Handle.index, fun h => congrArg Handle.mk h⟩

/-- A set of handles. -/
structure HandleSet where
  members : SortedMap Handle Unit

namespace HandleSet

def empty : HandleSet := ⟨∅⟩

instance : EmptyCollection HandleSet := ⟨empty⟩

instance : Inhabited HandleSet := ⟨empty⟩

instance : Membership Handle HandleSet := ⟨fun s h => s.members.get? h = some ()⟩

instance (h : Handle) (s : HandleSet) : Decidable (h ∈ s) :=
  inferInstanceAs (Decidable (s.members.get? h = some ()))

def insert (s : HandleSet) (h : Handle) : HandleSet := ⟨s.members.insert h ()⟩

def insertAll (s : HandleSet) (handles : List Handle) : HandleSet := handles.foldl insert s

/-- The members, ascending, each once. -/
def toList (s : HandleSet) : List Handle := s.members.keys

theorem mem_insert {s : HandleSet} {h h' : Handle} : h' ∈ s.insert h ↔ h' = h ∨ h' ∈ s := by
  show (s.members.insert h ()).get? h' = some () ↔ h' = h ∨ s.members.get? h' = some ()
  rw [SortedMap.get?_insert]
  by_cases hh : h = h'
  · simp [hh]
  · simp [hh, Ne.symm hh]

theorem mem_insertAll {s : HandleSet} {handles : List Handle} {h : Handle} :
    h ∈ s.insertAll handles ↔ h ∈ handles ∨ h ∈ s := by
  induction handles generalizing s with
  | nil => simp [insertAll]
  | cons a rest ih =>
    show h ∈ (s.insert a).insertAll rest ↔ _
    rw [ih, mem_insert, List.mem_cons]
    grind

@[simp]
theorem not_mem_empty (h : Handle) : ¬ h ∈ (∅ : HandleSet) := by
  show ¬ (∅ : SortedMap Handle Unit).get? h = some ()
  simp

@[simp]
theorem mem_toList {s : HandleSet} {h : Handle} : h ∈ s.toList ↔ h ∈ s := by
  show h ∈ s.members.toList.map Prod.fst ↔ s.members.get? h = some ()
  rw [SortedMap.get?_eq_some_iff, List.mem_map]
  constructor
  · rintro ⟨⟨k, u⟩, hm, rfl⟩
    exact hm
  · exact fun hm => ⟨(h, ()), hm, rfl⟩

theorem toList_ascending (s : HandleSet) : s.toList.Pairwise fun a b => a.index < b.index :=
  List.pairwise_map.mpr s.members.ascending

end HandleSet

end Skirmish

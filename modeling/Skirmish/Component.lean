import Skirmish.Geometry
/-!
# Components

The plain values that an entity can carry. None has an identity of its own; the registry addresses
them by the handle of the entity and by their type (`ComponentType`).
-/

namespace Skirmish

/-- What an entity is, as players are told. -/
inductive EntityKind where
  | player
  | enemy
  | playerBullet
  | enemyBullet
  | powerup
  | obstacle
deriving DecidableEq, Repr, Inhabited

namespace EntityKind

def name : EntityKind → String
  | player => "Player"
  | enemy => "Enemy"
  | playerBullet => "PlayerBullet"
  | enemyBullet => "EnemyBullet"
  | powerup => "Powerup"
  | obstacle => "Obstacle"

/-- The number of a kind in packets. -/
def code : EntityKind → UInt8
  | player => 0
  | enemy => 1
  | playerBullet => 2
  | enemyBullet => 3
  | powerup => 4
  | obstacle => 5

def ofCode? (n : UInt8) : Option EntityKind :=
  match n.toNat with
  | 0 => some player
  | 1 => some enemy
  | 2 => some playerBullet
  | 3 => some enemyBullet
  | 4 => some powerup
  | 5 => some obstacle
  | _ => none

@[simp]
theorem ofCode?_code (k : EntityKind) : ofCode? k.code = some k := by
  cases k <;> rfl

/-- The numbers after the last kind stand for nothing. -/
theorem ofCode?_eq_none_iff {n : UInt8} : ofCode? n = none ↔ 5 < n.toNat := by
  constructor
  · intro hnone
    apply Nat.lt_of_not_le
    intro hle
    have hcases : n.toNat = 0 ∨ n.toNat = 1 ∨ n.toNat = 2 ∨ n.toNat = 3 ∨ n.toNat = 4 ∨
        n.toNat = 5 := by omega
    rcases hcases with h | h | h | h | h | h <;> simp [ofCode?, h] at hnone
  · intro hlarge
    unfold ofCode?
    split <;> first | omega | rfl

theorem code_of_ofCode? {n : UInt8} {k : EntityKind} (h : ofCode? n = some k) : k.code = n := by
  unfold ofCode? at h
  apply UInt8.toNat_inj.mp
  split at h <;> cases h <;> simp [code, *]

end EntityKind

/-- Red, green, blue and opacity. -/
structure Color where
  red : UInt8
  green : UInt8
  blue : UInt8
  opacity : UInt8
deriving DecidableEq, Repr, Inhabited

/-- An opaque colour. -/
def Color.rgb (red green blue : UInt8) : Color := ⟨red, green, blue, 255⟩

/-- How large an entity is, on the screen and for collisions alike. -/
structure Drawable where
  width : Single
  height : Single
  color : Color
deriving DecidableEq, Repr, Inhabited

/-- The box that an entity fills when its top left corner is at `p`. -/
def Drawable.boxAt (d : Drawable) (p : Vector2) : Box := ⟨p.x, p.y, d.width, d.height⟩

structure Health where
  current : UInt8
  max : UInt8
deriving DecidableEq, Repr, Inhabited

namespace Health

def full (max : UInt8) : Health := ⟨max, max⟩

/-- Takes `amount` away, not below zero. -/
def hit (h : Health) (amount : UInt8) : Health :=
  { h with current := if amount ≤ h.current then h.current - amount else 0 }

/-- Nothing is left. -/
def isSpent (h : Health) : Bool := h.current == 0

theorem toNat_hit (h : Health) (amount : UInt8) :
    (h.hit amount).current.toNat = h.current.toNat - amount.toNat := by
  unfold hit
  by_cases hle : amount ≤ h.current
  · simp [hle, UInt8.toNat_sub_of_le _ _ hle]
  · have : h.current.toNat < amount.toNat := by simpa [UInt8.lt_iff_toNat_lt] using hle
    simp [hle]
    omega

end Health

/-- The player that an entity belongs to; zero is the server itself. -/
def serverOwner : UInt8 := 0

/-- The types of component, each the name of one column of the registry. -/
inductive ComponentType where
  | position
  | velocity
  | drawable
  | health
  | damage
  | networkId
  | owner
  | kind
  | lifetime
deriving DecidableEq, Repr, Inhabited

namespace ComponentType

/-- What a component of a type is: a point, units per second, the id that stands for an entity in
packets, the owning player, the seconds left. -/
abbrev Value : ComponentType → Type
  | position => Vector2
  | velocity => Vector2
  | drawable => Drawable
  | health => Health
  | damage => UInt8
  | networkId => UInt32
  | owner => UInt8
  | kind => EntityKind
  | lifetime => Single

def all : List ComponentType :=
  [position, velocity, drawable, health, damage, networkId, owner, kind, lifetime]

end ComponentType

end Skirmish

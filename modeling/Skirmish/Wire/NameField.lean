import Skirmish.Text.Utf8
import Skirmish.Wire.Layout
/-!
# The name field

A name travels in sixteen bytes: as many whole characters as fit into fifteen bytes of UTF-8, and
zeros up to the end, so that the field always ends in a zero. Reading stops at the first zero.
-/

namespace Skirmish.Wire

/-- Sixteen bytes. -/
structure NameField where
  bytes : List UInt8
  length_eq : bytes.length = 16
deriving DecidableEq, Repr

namespace NameField

/-- The bytes of a name that fit, and zeros up to the end. -/
def encode (name : String) : NameField :=
  let body := Utf8.encode (Utf8.fitting 15 name.toList)
  ⟨body ++ List.replicate (16 - body.length) 0, by
    have := Utf8.length_encode_fitting 15 name.toList
    simp only [List.length_append, List.length_replicate, body]
    omega⟩

/-- The text in front of the first zero; what is not UTF-8 is replaced. -/
def decode (f : NameField) : String :=
  String.ofList (Utf8.decodeLenient (f.bytes.takeWhile (· ≠ 0)))

/-- The field as it stands, byte by byte. -/
def layout : Layout NameField where
  width := 16
  write f := f.bytes
  read bytes :=
    if h : 16 ≤ bytes.length then
      some (⟨bytes.take 16, by rw [List.length_take]; omega⟩, bytes.drop 16)
    else none

theorem lawful_layout : layout.Lawful where
  length_write f := f.length_eq
  read_write f rest := by
    have h : 16 ≤ (f.bytes ++ rest).length := by
      rw [List.length_append, f.length_eq]
      omega
    obtain ⟨bytes, hb⟩ := f
    simp [layout, hb]
  write_of_read {bytes f rest} h := by
    simp only [layout] at h ⊢
    split at h
    · cases h
      exact (List.take_append_drop 16 bytes).symm
    · cases h
  read_isSome {bytes} h := by
    have h : 16 ≤ bytes.length := h
    simp [layout, h]

end NameField

end Skirmish.Wire

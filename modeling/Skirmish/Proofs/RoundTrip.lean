import Skirmish.Proofs.Utf8
import Skirmish.Wire.Packet
/-!
# What is sent is what arrives

A packet that was written reads back with its token and its payload. There is one exception, and it
is by design: a name has to fit into its field, so of the name of an announced entity only what the
field can hold arrives (`Payload.arrived`, and in words `Arrives`).

The layouts are lawful, so each payload of fixed width comes back by the laws alone. What is left to
prove is about the three things that stand beside the layouts: the table of sizes that the header is
filled from, the count in front of a batch, and the name field.
-/

namespace Skirmish.Wire

/-! ## Names -/

/-- A prefix of a text that takes up at most `room` bytes, and no longer one does. -/
structure IsLongestFit (room : Nat) (text kept : List Char) : Prop where
  isPrefix : kept <+: text
  fits : (Utf8.encode kept).length ≤ room
  longest : ∀ other, other <+: text → (Utf8.encode other).length ≤ room → other <+: kept

theorem isLongestFit_fitting (room : Nat) (text : List Char) :
    IsLongestFit room text (Utf8.fitting room text) where
  isPrefix := Utf8.fitting_prefix room text
  fits := Utf8.length_encode_fitting room text
  longest _ h hroom := Utf8.prefix_fitting h hroom

namespace NameField

/-- A name as it comes out of the field that it was put into. -/
def kept (name : String) : String := (encode name).decode

/-- What fits is kept, up to the first NUL. -/
theorem kept_eq (name : String) :
    kept name =
      String.ofList ((Utf8.fitting 15 name.toList).takeWhile (· ≠ '\x00')) := by
  have hlen := Utf8.length_encode_fitting 15 name.toList
  -- at least one zero follows the text, so the cut is made on characters
  have hpad : 16 - (Utf8.encode (Utf8.fitting 15 name.toList)).length =
      (15 - (Utf8.encode (Utf8.fitting 15 name.toList)).length) + 1 := by omega
  unfold kept decode encode
  simp only
  rw [hpad, List.replicate_succ, Utf8.takeWhile_encode, Utf8.decodeLenient_encode]

end NameField

/-! ## Payloads -/

namespace Payload

/-- A payload as it arrives. -/
def arrived : Payload → Payload
  | spawn s => spawn { s with username := NameField.kept s.username }
  | payload => payload

/-- What a payload is after its way through the network: the name of an announced entity is cut,
everything else is as it was. -/
inductive Arrives : Payload → Payload → Prop
  | announcement {s : Spawn} {text : List Char} (h : IsLongestFit 15 s.username.toList text) :
      Arrives (spawn s)
        (spawn { s with username := String.ofList (text.takeWhile (· ≠ '\x00')) })
  | other {p : Payload} (h : p.kind ≠ .spawn) : Arrives p p

theorem arrives_arrived (p : Payload) : Arrives p p.arrived := by
  cases p with
  | spawn s =>
    rw [arrived, NameField.kept_eq]
    exact .announcement (isLongestFit_fitting 15 _)
  | input | update | destroy | batch | ping | pong => exact .other (by simp [kind])

theorem length_entries (entries : List Entry) :
    (entries.flatMap entryLayout.write).length = entries.length * 13 := by
  induction entries with
  | nil => rfl
  | cons e rest ih =>
    rw [List.flatMap_cons, List.length_append, lawful_entryLayout.length_write, ih,
      List.length_cons, Nat.add_mul, Nat.add_comm]
    rfl

/-- The table of sizes is right. -/
theorem length_bytes (p : Payload) : p.bytes.length = p.size := by
  cases p with
  | input i => exact lawful_inputLayout.length_write i
  | spawn s => exact RawSpawn.lawful_layout.length_write _
  | update u => exact lawful_updateLayout.length_write u
  | destroy networkId => exact Layout.lawful_word32.length_write networkId
  | batch b =>
    show (b.entries.flatMap entryLayout.write).length + 1 = 1 + b.entries.length * 13
    rw [length_entries, Nat.add_comm]
  | ping => rfl
  | pong => rfl

theorem size_lt (p : Payload) : p.size < 256 := by
  cases p with
  | batch b =>
    have h : b.entries.length ≤ 10 := b.length_le
    show 1 + b.entries.length * 13 < 256
    omega
  | input | spawn | update | destroy | ping | pong => simp [size]

theorem ofLayout_write {α : Type} {l : Layout α} (hl : l.Lawful) (kind : MessageKind) (a : α) :
    ofLayout kind l (l.write a) = .ok a := by
  rw [ofLayout, hl.readAll_eq_some_iff.mpr rfl]

theorem toSpawn_ofSpawn (s : Spawn) :
    (RawSpawn.ofSpawn s).toSpawn = .ok { s with username := NameField.kept s.username } := by
  simp only [RawSpawn.toSpawn, RawSpawn.ofSpawn, EntityKind.ofCode?_code]
  rfl

theorem batchOfBytes_bytes (b : Batch) : batchOfBytes (batch b).bytes = .ok b := by
  have hb : b.entries.length ≤ 10 := b.length_le
  have hcount : (UInt8.ofNat b.entries.length).toNat = b.entries.length := by
    rw [UInt8.toNat_ofNat']
    omega
  have hread := lawful_entryLayout.readMany_write b.entries []
  rw [List.append_nil] at hread
  show batchOfBytes (UInt8.ofNat b.entries.length :: b.entries.flatMap entryLayout.write) = .ok b
  simp only [batchOfBytes, hcount, hread]
  rw [if_neg (Nat.not_lt.mpr b.length_le), Batch.ofEntries, dif_pos b.length_le]

/-- Every payload is read as what it arrives as. -/
theorem ofBytes_bytes (p : Payload) : ofBytes p.kind p.bytes = .ok p.arrived := by
  -- each kind is read by the layout it is written with
  cases p with
  | input i =>
    show (ofLayout .input inputLayout (inputLayout.write i)).map input = .ok (input i)
    rw [ofLayout_write lawful_inputLayout]
    rfl
  | spawn s =>
    show (do
      let raw ← ofLayout .spawn RawSpawn.layout (RawSpawn.layout.write (.ofSpawn s))
      return spawn (← raw.toSpawn)) = Except.ok (spawn s).arrived
    rw [ofLayout_write RawSpawn.lawful_layout]
    show (do return spawn (← (RawSpawn.ofSpawn s).toSpawn)) = Except.ok (spawn s).arrived
    rw [toSpawn_ofSpawn]
    rfl
  | update u =>
    show (ofLayout .update updateLayout (updateLayout.write u)).map update = .ok (update u)
    rw [ofLayout_write lawful_updateLayout]
    rfl
  | destroy networkId =>
    show (ofLayout .destroy .word32 (Layout.word32.write networkId)).map destroy = _
    rw [ofLayout_write Layout.lawful_word32]
    rfl
  | batch b =>
    show (batchOfBytes (batch b).bytes).map batch = .ok (batch b)
    rw [batchOfBytes_bytes]
    rfl
  | ping => rfl
  | pong => rfl

end Payload

/-! ## Headers -/

/-- A header that is accepted stands at the front as it is, and it is what the packet has to have. -/
theorem Header.write_of_validate {b body : List UInt8} {header : Header}
    (h : validate b = .ok (header, body)) :
    b = layout.write header ++ body ∧ header.magic = Wire.magic ∧
      header.version = Wire.version ∧ header.payloadSize.toNat = body.length := by
  unfold validate at h
  split at h
  · cases h
  · rename_i header' body' hread
    split at h
    · cases h
    · rename_i hmagic
      split at h
      · cases h
      · rename_i hversion
        split at h
        · cases h
        · rename_i hsize
          cases h
          exact ⟨lawful_layout.write_of_read hread, Decidable.not_not.mp hmagic,
            Decidable.not_not.mp hversion, Decidable.not_not.mp hsize⟩

/-! ## Packets -/

namespace Packet

theorem payloadSize_header (p : Packet) : p.header.payloadSize.toNat = p.payload.size := by
  have := p.payload.size_lt
  show (UInt8.ofNat p.payload.size).toNat = p.payload.size
  rw [UInt8.toNat_ofNat']
  omega

/-- The header that a packet is sent with is accepted, in front of the payload. -/
theorem validate_encode (p : Packet) :
    Header.validate p.encode = .ok (p.header, p.payload.bytes) := by
  simp only [Header.validate, encode, Header.lawful_layout.read_write]
  rw [if_neg (fun h => h rfl), if_neg (fun h => h rfl),
    if_neg (fun h => h (by rw [payloadSize_header, Payload.length_bytes]))]

theorem decode_encode_arrived (p : Packet) :
    decode p.encode = .ok ⟨p.token, p.payload.arrived⟩ := by
  have hkind : MessageKind.ofCode? p.header.kind = some p.payload.kind :=
    MessageKind.ofCode?_code _
  simp only [decode, validate_encode, bind, Except.bind, hkind, Payload.ofBytes_bytes]
  rfl

theorem length_encode (p : Packet) : p.encode.length = 9 + p.payload.size := by
  rw [encode, List.length_append, Header.lawful_layout.length_write, Payload.length_bytes]
  rfl

/-- **What is sent is what arrives.** Every packet reads back with its token and with its payload,
the name of an announced entity cut to what its field holds. The size that the header declares is
that of the payload, and no packet is longer than the longest that a header can declare. -/
theorem decode_encode (p : Packet) :
    (∃ payload, decode p.encode = .ok ⟨p.token, payload⟩ ∧ p.payload.Arrives payload) ∧
      p.encode.drop 9 = p.payload.bytes ∧
      p.payload.bytes.length = p.payload.size ∧
      p.payload.size < 256 ∧
      p.encode[3]?.map UInt8.toNat = some p.payload.size ∧
      p.encode.length ≤ maxSize := by
  have hsize := p.payload.size_lt
  have hheader : (Header.layout.write p.header).length = 9 := Header.lawful_layout.length_write _
  refine ⟨⟨p.payload.arrived, p.decode_encode_arrived, p.payload.arrives_arrived⟩, ?_,
    p.payload.length_bytes, hsize, ?_, ?_⟩
  · rw [encode, ← hheader, List.drop_left]
  · show some p.header.payloadSize.toNat = some p.payload.size
    rw [payloadSize_header]
  · rw [length_encode, maxSize]
    omega

end Packet

end Skirmish.Wire

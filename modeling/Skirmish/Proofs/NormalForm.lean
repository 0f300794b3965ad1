import Skirmish.Proofs.Failing
import Skirmish.Proofs.RoundTrip
/-!
# Writing undoes reading

What is read from a datagram is written as the same datagram again, whoever made it. The layouts
give that by their laws, the count of a batch and the header by what reading compares them with.
Only the name of an announced entity is different, since reading is lenient there: it drops what
follows the first zero and replaces what is not UTF-8, and a longer text is cut when it is
written. So the field comes back as it was if it was normal (`IsNormalName`), and in normal form
if it was not.

One round is enough, for a name that was read has no NUL in it (`nul_not_mem_decode`). What is cut
from it is cut at the end, and what is kept fits.
-/

namespace Skirmish.Wire

/-! ## Names -/

/-- At most fifteen bytes of UTF-8, none of them zero, and then nothing but zeros. -/
def IsNormalName (bytes : List UInt8) : Prop :=
  ∃ body zeros, bytes = body ++ zeros ∧ body.length ≤ 15 ∧ 0 ∉ body ∧
    (∃ text, Utf8.encode text = body) ∧ ∀ b ∈ zeros, b = 0

namespace NameField

theorem bytes_inj {f g : NameField} : f.bytes = g.bytes ↔ f = g := by
  cases f
  cases g
  simp

theorem bytes_encode (name : String) :
    (encode name).bytes = Utf8.encode (Utf8.fitting 15 name.toList) ++
      List.replicate (16 - (Utf8.encode (Utf8.fitting 15 name.toList)).length) 0 := rfl

theorem nul_not_mem_decode (f : NameField) : '\x00' ∉ f.decode.toList := by
  rw [decode, String.toList_ofList]
  apply Utf8.nul_not_mem_decodeLenient
  intro hzero
  simpa using List.all_eq_true.mp List.all_takeWhile 0 hzero

/-- A field is written from a text without NUL in normal form. -/
theorem isNormalName_encode {name : String} (h : '\x00' ∉ name.toList) :
    IsNormalName (encode name).bytes := by
  refine ⟨_, _, rfl, Utf8.length_encode_fitting 15 name.toList, ?_, ⟨_, rfl⟩, ?_⟩
  · apply Utf8.zero_not_mem_encode
    intro hmem
    have hkept := Utf8.fitting_prefix 15 name.toList
    exact h (hkept.subset hmem)
  · intro b hb
    exact List.eq_of_mem_replicate hb

/-- The text in front of the first zero is what is read. -/
theorem decode_of_bytes {f : NameField} {text : List Char} {rest : List UInt8}
    (h : f.bytes = Utf8.encode text ++ 0 :: rest) (hzero : 0 ∉ Utf8.encode text) :
    f.decode = String.ofList text := by
  have hwhile : f.bytes.takeWhile (· ≠ 0) = Utf8.encode text := by
    rw [h, List.takeWhile_append_of_pos, List.takeWhile_cons_of_neg, List.append_nil]
    · simp
    · intro b hb
      rw [decide_eq_true_eq]
      intro hb0
      exact hzero (hb0 ▸ hb)
  rw [decode, hwhile, Utf8.decodeLenient_encode]

/-- A field in normal form is written again as it was. -/
theorem encode_decode_of_isNormalName {f : NameField} (h : IsNormalName f.bytes) :
    encode f.decode = f := by
  obtain ⟨body, zeros, hbytes, hshort, hzero, ⟨text, rfl⟩, hzeros⟩ := h
  have hlen := f.length_eq
  rw [hbytes, List.length_append] at hlen
  -- at least one zero follows, so the text ends where the body does
  obtain ⟨n, hn⟩ : ∃ n, zeros.length = n + 1 := ⟨zeros.length - 1, by omega⟩
  have hpad : zeros = 0 :: List.replicate n 0 := by
    rw [← List.replicate_succ, ← hn]
    exact List.eq_replicate_of_mem hzeros
  have hcount : 16 - (Utf8.encode text).length = n + 1 := by omega
  rw [hpad] at hbytes
  rw [decode_of_bytes hbytes hzero, ← bytes_inj, hbytes, bytes_encode, String.toList_ofList,
    Utf8.fitting_of_fits hshort, hcount, List.replicate_succ]

/-- Exactly the fields in normal form survive a round. -/
theorem encode_decode_eq_iff (f : NameField) : encode f.decode = f ↔ IsNormalName f.bytes := by
  constructor
  · intro h
    rw [← h]
    exact isNormalName_encode f.nul_not_mem_decode
  · exact encode_decode_of_isNormalName

/-- A name without NUL is put into its field as what will be kept of it. -/
theorem encode_kept {name : String} (h : '\x00' ∉ name.toList) :
    encode (kept name) = encode name :=
  encode_decode_of_isNormalName (isNormalName_encode h)

end NameField

/-! ## Payloads -/

namespace RawSpawn

/-- The bytes in front of the name. -/
def lead (raw : RawSpawn) : List UInt8 :=
  Layout.word32.write raw.networkId ++ [raw.kind, raw.owner] ++
    vectorLayout.write raw.position ++ vectorLayout.write raw.velocity ++ [raw.health]

theorem write_eq (raw : RawSpawn) : layout.write raw = raw.lead ++ raw.username.bytes := by
  simp only [lead, List.append_assoc]
  rfl

theorem length_lead (raw : RawSpawn) : raw.lead.length = 23 := by
  have hlen := congrArg List.length raw.write_eq
  have hall : (layout.write raw).length = 39 := lawful_layout.length_write raw
  rw [hall, List.length_append, raw.username.length_eq] at hlen
  omega

/-- Only the name is written differently from what was read. -/
theorem ofSpawn_of_toSpawn {raw : RawSpawn} {s : Spawn} (h : raw.toSpawn = .ok s) :
    ofSpawn s = { raw with username := .encode raw.username.decode } ∧
      s.username = raw.username.decode := by
  unfold toSpawn at h
  split at h
  · rename_i kind hkind
    cases h
    simp only [ofSpawn, EntityKind.code_of_ofCode? hkind, and_self]
  · cases h

end RawSpawn

namespace Payload

theorem write_of_ofLayout {α : Type} {l : Layout α} (hl : l.Lawful) {kind : MessageKind}
    {body : List UInt8} {a : α} (h : ofLayout kind l body = .ok a) : body = l.write a := by
  unfold ofLayout at h
  split at h
  · rename_i a' ha
    cases h
    exact hl.readAll_eq_some_iff.mp ha
  · cases h

theorem write_of_batchOfBytes {body : List UInt8} {b : Batch} (h : batchOfBytes body = .ok b) :
    body = (batch b).bytes := by
  cases body with
  | nil => cases h
  | cons count rest =>
    simp only [batchOfBytes] at h
    split at h
    · cases h
    · split at h
      · rename_i entries hread
        obtain ⟨hrest, hcount⟩ := lawful_entryLayout.write_of_readMany hread
        rw [List.append_nil] at hrest
        unfold Batch.ofEntries at h
        split at h
        · cases h
          rw [bytes, hcount, UInt8.ofNat_toNat, hrest]
        · cases h
      · cases h

theorem write_of_ofNothing {kind : MessageKind} {payload payload' : Payload} {body : List UInt8}
    (h : ofNothing kind payload body = .ok payload') : payload' = payload ∧ body = [] := by
  unfold ofNothing at h
  split at h
  · rename_i hbody
    cases h
    exact ⟨rfl, hbody⟩
  · cases h

/-- An announcement is read field by field, and then its kind and its name are. -/
theorem ofBytes_spawn {body : List UInt8} {payload : Payload}
    (h : ofBytes .spawn body = .ok payload) :
    ∃ raw s, body = RawSpawn.layout.write raw ∧ raw.toSpawn = .ok s ∧ payload = spawn s := by
  simp only [ofBytes, bind, Except.bind] at h
  split at h
  · cases h
  · rename_i raw hraw
    split at h
    · cases h
    · rename_i s hs
      cases h
      exact ⟨raw, s, write_of_ofLayout RawSpawn.lawful_layout hraw, hs, rfl⟩

/-- Every other payload is written as the bytes that it was read from. -/
theorem bytes_of_ofBytes {kind : MessageKind} {body : List UInt8} {payload : Payload}
    (h : ofBytes kind body = .ok payload) (hkind : kind ≠ .spawn) :
    payload.kind = kind ∧ payload.bytes = body := by
  -- for every kind but one its layout is a bijection on the bytes it reads
  cases kind with
  | input =>
    obtain ⟨i, hi, rfl⟩ := map_eq_ok_iff.mp h
    exact ⟨rfl, (write_of_ofLayout lawful_inputLayout hi).symm⟩
  | spawn => exact absurd rfl hkind
  | update =>
    obtain ⟨u, hu, rfl⟩ := map_eq_ok_iff.mp h
    exact ⟨rfl, (write_of_ofLayout lawful_updateLayout hu).symm⟩
  | destroy =>
    obtain ⟨networkId, hid, rfl⟩ := map_eq_ok_iff.mp h
    exact ⟨rfl, (write_of_ofLayout Layout.lawful_word32 hid).symm⟩
  | batch =>
    obtain ⟨b, hb, rfl⟩ := map_eq_ok_iff.mp h
    exact ⟨rfl, (write_of_batchOfBytes hb).symm⟩
  | ping =>
    obtain ⟨rfl, rfl⟩ := write_of_ofNothing h
    exact ⟨rfl, rfl⟩
  | pong =>
    obtain ⟨rfl, rfl⟩ := write_of_ofNothing h
    exact ⟨rfl, rfl⟩

/-- An announced name that was read has no NUL. -/
theorem nul_not_mem_of_ofBytes {kind : MessageKind} {body : List UInt8} {s : Spawn}
    (h : ofBytes kind body = .ok (spawn s)) : '\x00' ∉ s.username.toList := by
  by_cases hkind : kind = .spawn
  · subst hkind
    obtain ⟨raw, s', -, hs, heq⟩ := ofBytes_spawn h
    cases heq
    rw [(RawSpawn.ofSpawn_of_toSpawn hs).2]
    exact raw.username.nul_not_mem_decode
  · exact absurd (bytes_of_ofBytes h hkind).1.symm hkind

/-- What arrives of a payload with no NUL in its name is written as the payload is. -/
theorem bytes_arrived {payload : Payload}
    (h : ∀ s, payload = spawn s → '\x00' ∉ s.username.toList) :
    payload.arrived.kind = payload.kind ∧ payload.arrived.bytes = payload.bytes := by
  cases payload with
  | spawn s =>
    refine ⟨rfl, ?_⟩
    show RawSpawn.layout.write
      { RawSpawn.ofSpawn s with username := .encode (NameField.kept s.username) } = _
    rw [NameField.encode_kept (h s rfl)]
    rfl
  | input | update | destroy | batch | ping | pong => exact ⟨rfl, rfl⟩

end Payload

/-! ## Packets -/

namespace Packet

/-- The parts of a datagram that was taken. -/
theorem parts_of_decode {b : List UInt8} {p : Packet} (h : decode b = .ok p) :
    ∃ kind body, Payload.ofBytes kind body = .ok p.payload ∧
      b = Header.layout.write
        ⟨Wire.magic, Wire.version, UInt8.ofNat body.length, kind.code, p.token⟩ ++ body := by
  simp only [decode, bind, Except.bind] at h
  split at h
  · cases h
  · rename_i r hvalid
    obtain ⟨⟨magic, version, size, code, token⟩, body⟩ := r
    obtain ⟨hb, hmagic, hversion, hsize⟩ := Header.write_of_validate hvalid
    split at h
    · cases h
    · rename_i kind hkind
      split at h
      · cases h
      · rename_i payload hpayload
        cases h
        -- a valid header has one form, so nothing of it is lost by decoding
        have hmagic : magic = Wire.magic := hmagic
        have hversion : version = Wire.version := hversion
        have hsize : size.toNat = body.length := hsize
        refine ⟨kind, body, hpayload, ?_⟩
        rw [hb, hmagic, hversion, ← hsize, UInt8.ofNat_toNat, MessageKind.code_of_ofCode? hkind]

/-- What is written is the header for the kind and the size of the payload, and the payload. -/
theorem encode_eq (p : Packet) :
    p.encode = Header.layout.write ⟨Wire.magic, Wire.version,
      UInt8.ofNat p.payload.bytes.length, p.payload.kind.code, p.token⟩ ++ p.payload.bytes := by
  rw [Payload.length_bytes]
  rfl

/-- A datagram that announces no entity is written again as it was. -/
theorem encode_of_decode_other {b : List UInt8} {p : Packet} (h : decode b = .ok p)
    (hcode : b[4]? ≠ some 0x20) : p.encode = b := by
  obtain ⟨kind, body, hpayload, rfl⟩ := parts_of_decode h
  have hkind : kind ≠ .spawn := by
    rintro rfl
    exact hcode rfl
  obtain ⟨hpkind, hbytes⟩ := Payload.bytes_of_ofBytes hpayload hkind
  rw [encode_eq, hpkind, hbytes]

/-- A datagram that announces an entity is written again with its name in normal form. -/
theorem encode_of_decode_spawn {b : List UInt8} {p : Packet} (h : decode b = .ok p)
    (hcode : b[4]? = some 0x20) :
    ∃ (front : List UInt8) (f : NameField), front.length = 32 ∧ b = front ++ f.bytes ∧
      p.encode = front ++ (NameField.encode f.decode).bytes := by
  obtain ⟨kind, body, hpayload, rfl⟩ := parts_of_decode h
  have hkind : kind = .spawn := by
    have hcode : some kind.code = some 0x20 := hcode
    cases kind <;> first | rfl | exact absurd hcode (by decide)
  subst hkind
  -- only the name is written anew; the header and what stands in front of it are copied
  obtain ⟨raw, s, rfl, hs, hp⟩ := Payload.ofBytes_spawn hpayload
  have hraw := (RawSpawn.ofSpawn_of_toSpawn hs).1
  have hlen : (RawSpawn.layout.write raw).length = 39 := RawSpawn.lawful_layout.length_write raw
  refine ⟨Header.layout.write ⟨Wire.magic, Wire.version, 39, MessageKind.spawn.code, p.token⟩ ++
    raw.lead, raw.username, ?_, ?_, ?_⟩
  · rw [List.length_append, Header.lawful_layout.length_write, raw.length_lead]
    rfl
  · rw [hlen, raw.write_eq, List.append_assoc]
    rfl
  · have hbytes : p.payload.bytes = raw.lead ++ (NameField.encode raw.username.decode).bytes := by
      rw [hp]
      show RawSpawn.layout.write (RawSpawn.ofSpawn s) = _
      rw [hraw, RawSpawn.write_eq]
      rfl
    -- the encoder writes a header for the payload it is given, and this is again a spawn
    have hpkind : p.payload.kind = .spawn := by
      rw [hp]
      rfl
    have hpsize : p.payload.bytes.length = 39 := by
      rw [Payload.length_bytes, hp]
      rfl
    rw [encode_eq, hpsize, hpkind, hbytes, List.append_assoc]
    rfl

/-- What was written from a datagram is read and written again without a change. -/
theorem encode_decode_encode {b : List UInt8} {p : Packet} (h : decode b = .ok p) :
    ∃ p', decode p.encode = .ok p' ∧ p'.encode = p.encode := by
  refine ⟨⟨p.token, p.payload.arrived⟩, p.decode_encode_arrived, ?_⟩
  obtain ⟨kind, body, hpayload, -⟩ := parts_of_decode h
  obtain ⟨hkind, hbytes⟩ := Payload.bytes_arrived fun s hs =>
    Payload.nul_not_mem_of_ofBytes (hpayload.trans (congrArg Except.ok hs))
  rw [encode_eq, encode_eq, hkind, hbytes]

/-- **Writing undoes reading.** A datagram that is taken and announces no entity is written again
byte by byte. One that announces an entity is written again with at most its sixteen bytes of name
changed, and with none changed exactly if the name was in normal form. What is written is taken
again, and from then on nothing changes any more. -/
theorem encode_of_decode {b : List UInt8} {p : Packet} (h : decode b = .ok p) :
    (b[4]? ≠ some 0x20 → p.encode = b) ∧
      (b[4]? = some 0x20 →
        b.length = 48 ∧ p.encode.length = 48 ∧ p.encode.take 32 = b.take 32 ∧
          (p.encode = b ↔ IsNormalName (b.drop 32))) ∧
      ∃ p', decode p.encode = .ok p' ∧ p'.encode = p.encode := by
  refine ⟨encode_of_decode_other h, ?_, encode_decode_encode h⟩
  intro hcode
  obtain ⟨front, f, hfront, rfl, hencode⟩ := encode_of_decode_spawn h hcode
  rw [hencode, List.length_append, List.length_append, f.length_eq, NameField.length_eq, hfront,
    List.take_left' hfront, List.take_left' hfront, List.drop_left' hfront,
    ← NameField.encode_decode_eq_iff, List.append_right_inj, NameField.bytes_inj]
  exact ⟨rfl, rfl, rfl, Iff.rfl⟩

/-- An announcement with a name of sixteen bytes that begin no character. -/
def invalidName : List UInt8 :=
  [0xcd, 0xab, 0x01, 39, 0x20, 7, 0, 0, 0] ++ [9, 0, 0, 0, 0, 1] ++ List.replicate 16 0 ++ [100] ++
    List.replicate 16 0xff

/-- What is read from it, with a replacement for each byte of the name. -/
def invalidNameRead : Packet :=
  ⟨7, .spawn ⟨9, .player, 1, ⟨⟨0⟩, ⟨0⟩⟩, ⟨⟨0⟩, ⟨0⟩⟩, 100,
    String.ofList (List.replicate 16 Utf8.replacement)⟩⟩

/-- Only five of the replacements fit, so the name changes, once. -/
theorem encode_of_decode_of_invalidName :
    decode invalidName = .ok invalidNameRead ∧ invalidNameRead.encode ≠ invalidName ∧
      invalidNameRead.encode.take 32 = invalidName.take 32 ∧ ¬ IsNormalName (invalidName.drop 32) ∧
        ∃ p', decode invalidNameRead.encode = .ok p' ∧ p'.encode = invalidNameRead.encode := by
  have hread : decode invalidName = .ok invalidNameRead := by rfl
  obtain ⟨-, hspawn, hagain⟩ := encode_of_decode hread
  obtain ⟨-, -, hfront, hnormal⟩ := hspawn rfl
  have hchanged : invalidNameRead.encode ≠ invalidName := by decide
  exact ⟨hread, hchanged, hfront, fun h => hchanged (hnormal.mpr h), hagain⟩

end Packet

end Skirmish.Wire

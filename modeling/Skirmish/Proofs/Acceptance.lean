import Skirmish.Gateway.Basic
import Skirmish.Proofs.RoundTrip
/-!
# Which datagrams are packets

The format is written down here once more, as numbers and without the readers: what every byte of
a packet has to be (`Documented`), and what there is to find fault with, in the order of the
search (`faults`). `Packet.decode` refuses a datagram with the first fault of that list, and takes
it if there is none.

The readers give no value when bytes are missing, so `decode` cannot run past the end. A reader
over a buffer has no such net: it compares lengths first and trusts them from then on. `scan` is
that reader. It stops with `Halt.overrun` where a read wants more bytes than are left, and it
never does, for what was compared is enough for all that is read.
-/

namespace Skirmish.Wire

/-! ## The format -/

/-- The byte at a place, and zero behind the end. -/
def byteAt (b : List UInt8) (i : Nat) : UInt8 := b.getD i 0

/-- The payloads that a message type stands in front of. -/
def FitsType (code : UInt8) (body : List UInt8) : Prop :=
  match code.toNat with
  | 0x10 => body.length = 8
  | 0x20 => body.length = 39 ∧ (byteAt body 4).toNat ≤ 5
  | 0x21 => body.length = 21
  | 0x22 => body.length = 4
  | 0x23 => ∃ count entries, body = count :: entries ∧ count.toNat ≤ 10 ∧
      entries.length = 13 * count.toNat
  | 0xf1 => body = []
  | 0xf2 => body = []
  | _ => False

/-- The datagrams that are packets. -/
structure Documented (b : List UInt8) : Prop where
  long : 9 ≤ b.length
  marked : b.take 3 = [0xcd, 0xab, 0x01]
  sized : (byteAt b 3).toNat = b.length - 9
  fits : FitsType (byteAt b 4) (b.drop 9)

/-- The first two bytes as a number. -/
def markOf (b : List UInt8) : UInt16 := UInt16.ofNat ((byteAt b 0).toNat + 256 * (byteAt b 1).toNat)

/-- What may be wrong in front of the payload, and whether it is. -/
def headerFaults (b : List UInt8) : List (Bool × Error) :=
  [(b.length < 9, .tooShort b.length),
    (markOf b ≠ 0xabcd, .badMagic (markOf b)),
    (byteAt b 2 ≠ 1, .badVersion (byteAt b 2)),
    ((byteAt b 3).toNat ≠ b.length - 9, .sizeMismatch (byteAt b 3).toNat (b.length - 9))]

/-- What may be wrong with a payload of a message type. -/
def payloadFaults (code : UInt8) (body : List UInt8) : List (Bool × Error) :=
  let wrongLength (kind : MessageKind) (expected : Nat) : Bool × Error :=
    (body.length ≠ expected, .payloadLength kind expected body.length)
  match code.toNat with
  | 0x10 => [wrongLength .input 8]
  | 0x20 => [wrongLength .spawn 39,
      (5 < (byteAt body 4).toNat, .unknownEntityKind (byteAt body 4))]
  | 0x21 => [wrongLength .update 21]
  | 0x22 => [wrongLength .destroy 4]
  | 0x23 => [(body.length = 0, .payloadLength .batch 1 0),
      (10 < (byteAt body 0).toNat, .batchTooLarge (byteAt body 0).toNat),
      wrongLength .batch (1 + 13 * (byteAt body 0).toNat)]
  | 0xf1 => [wrongLength .ping 0]
  | 0xf2 => [wrongLength .pong 0]
  | _ => [(true, .unknownType code)]

/-- All that may be wrong with a datagram, in the order in which it is looked for. -/
def faults (b : List UInt8) : List (Bool × Error) :=
  headerFaults b ++ payloadFaults (byteAt b 4) (b.drop 9)

/-- The first of the faults that are there. -/
def firstFault (table : List (Bool × Error)) : Option Error := (table.find? Prod.fst).map Prod.snd

@[simp]
theorem firstFault_nil : firstFault [] = none := rfl

@[simp]
theorem firstFault_cons (P : Prop) [Decidable P] (e : Error) (table : List (Bool × Error)) :
    firstFault ((decide P, e) :: table) = if P then some e else firstFault table := by
  by_cases hP : P
  · simp [firstFault, hP]
  · simp [firstFault, hP]

theorem firstFault_cons_eq_none_iff (P : Prop) [Decidable P] (e : Error)
    (table : List (Bool × Error)) :
    firstFault ((decide P, e) :: table) = none ↔ ¬ P ∧ firstFault table = none := by
  rw [firstFault_cons]
  by_cases hP : P
  · simp [hP]
  · simp [hP]

theorem firstFault_append (table rest : List (Bool × Error)) :
    firstFault (table ++ rest) = (firstFault table).or (firstFault rest) := by
  simp [firstFault, List.find?_append, Option.map_or]

/-- Why a reader gave nothing. -/
def refusal? {ε α : Type} : Except ε α → Option ε
  | .ok _ => none
  | .error e => some e

@[simp]
theorem refusal?_map {ε α β : Type} (x : Except ε α) (f : α → β) :
    refusal? (x.map f) = refusal? x := by
  cases x <;> rfl

theorem refusal?_eq_some_iff {ε α : Type} {x : Except ε α} {e : ε} :
    refusal? x = some e ↔ x = .error e := by
  cases x <;> simp [refusal?]

theorem refusal?_eq_none_iff {ε α : Type} {x : Except ε α} :
    refusal? x = none ↔ ∃ a, x = .ok a := by
  cases x <;> simp [refusal?]

/-! ## Payloads -/

namespace Payload

theorem refusal?_ofLayout {α : Type} {l : Layout α} (hl : l.Lawful) (kind : MessageKind)
    (body : List UInt8) :
    refusal? (ofLayout kind l body) =
      firstFault [(body.length ≠ l.width, .payloadLength kind l.width body.length)] := by
  by_cases hlen : body.length = l.width
  · obtain ⟨a, ha⟩ := Option.isSome_iff_exists.mp (hl.readAll_isSome_iff.mpr hlen)
    simp [ofLayout, ha, hlen, refusal?, firstFault]
  · simp [ofLayout, hl.readAll_eq_none_iff.mpr hlen, hlen, refusal?, firstFault]

theorem refusal?_ofNothing (kind : MessageKind) (payload : Payload) (body : List UInt8) :
    refusal? (ofNothing kind payload body) =
      firstFault [(body.length ≠ 0, .payloadLength kind 0 body.length)] := by
  by_cases hb : body = []
  · simp [ofNothing, hb, refusal?, firstFault]
  · simp [ofNothing, hb, refusal?, firstFault]

theorem refusal?_toSpawn (raw : RawSpawn) :
    refusal? raw.toSpawn =
      if 5 < raw.kind.toNat then some (.unknownEntityKind raw.kind) else none := by
  by_cases hkind : 5 < raw.kind.toNat
  · simp [RawSpawn.toSpawn, EntityKind.ofCode?_eq_none_iff.mpr hkind, hkind, refusal?]
  · obtain ⟨kind, hcode⟩ := Option.ne_none_iff_exists'.mp
      (mt EntityKind.ofCode?_eq_none_iff.mp hkind)
    simp [RawSpawn.toSpawn, hcode, hkind, refusal?]

theorem refusal?_spawn (body : List UInt8) :
    refusal? (ofBytes .spawn body) = firstFault (payloadFaults 0x20 body) := by
  show _ = firstFault [(decide (body.length ≠ 39), .payloadLength .spawn 39 body.length),
    (decide (5 < (byteAt body 4).toNat), .unknownEntityKind (byteAt body 4))]
  simp only [firstFault_cons, firstFault_nil]
  by_cases hlen : body.length = 39
  · obtain ⟨raw, hraw⟩ := Option.isSome_iff_exists.mp
      (RawSpawn.lawful_layout.readAll_isSome_iff.mpr hlen)
    have hbyte : byteAt body 4 = raw.kind := by
      rw [RawSpawn.lawful_layout.readAll_eq_some_iff.mp hraw]
      rfl
    have hbytes : ofBytes .spawn body = raw.toSpawn.map spawn := by
      simp only [ofBytes, ofLayout, hraw, bind, Except.bind, pure, Except.pure]
      cases raw.toSpawn <;> rfl
    rw [hbytes, refusal?_map, refusal?_toSpawn, hbyte, if_neg (not_not_intro hlen)]
  · have hrefused := refusal?_ofLayout RawSpawn.lawful_layout .spawn body
    rw [firstFault_cons, if_pos (show body.length ≠ RawSpawn.layout.width from hlen),
      refusal?_eq_some_iff] at hrefused
    rw [if_pos hlen, refusal?_eq_some_iff]
    simp only [ofBytes, hrefused, bind, Except.bind]
    rfl

/-- As many bytes as the count demands are so many entries. -/
theorem batchOfBytes_of_length {count : UInt8} {rest : List UInt8}
    (hsmall : ¬ maxEntries < count.toNat) (hlen : rest.length = count.toNat * 13) :
    ∃ entries, entryLayout.readMany count.toNat rest = some (entries, []) ∧
      entries.length ≤ maxEntries ∧ batchOfBytes (count :: rest) = Batch.ofEntries entries := by
  obtain ⟨entries, hread⟩ := lawful_entryLayout.readMany_of_length hlen
  have hentries := (lawful_entryLayout.write_of_readMany hread).2
  refine ⟨entries, hread, by omega, ?_⟩
  rw [batchOfBytes, if_neg hsmall, hread]

/-- More bytes or fewer than the count demands are no batch. -/
theorem batchOfBytes_of_length_ne {count : UInt8} {rest : List UInt8}
    (hsmall : ¬ maxEntries < count.toNat) (hlen : rest.length ≠ count.toNat * 13) :
    batchOfBytes (count :: rest) =
      .error (.payloadLength .batch (1 + count.toNat * 13) (1 + rest.length)) := by
  rw [batchOfBytes, if_neg hsmall]
  split
  · rename_i entries hread
    obtain ⟨hrest, hentries⟩ := lawful_entryLayout.write_of_readMany hread
    rw [List.append_nil] at hrest
    rw [hrest, length_entries, hentries] at hlen
    exact absurd rfl hlen
  · rfl

theorem refusal?_batch (body : List UInt8) :
    refusal? (ofBytes .batch body) = firstFault (payloadFaults 0x23 body) := by
  show refusal? ((batchOfBytes body).map batch) = firstFault
    [(decide (body.length = 0), .payloadLength .batch 1 0),
      (decide (10 < (byteAt body 0).toNat), .batchTooLarge (byteAt body 0).toNat),
      (decide (body.length ≠ 1 + 13 * (byteAt body 0).toNat),
        .payloadLength .batch (1 + 13 * (byteAt body 0).toNat) body.length)]
  rw [refusal?_map]
  simp only [firstFault_cons, firstFault_nil]
  -- the three faults are tested in the order of the decoder: nothing there, too many, a wrong
  -- length
  cases body with
  | nil => rfl
  | cons count rest =>
    have hcount : byteAt (count :: rest) 0 = count := rfl
    rw [hcount, List.length_cons, if_neg (Nat.succ_ne_zero _)]
    by_cases hlarge : maxEntries < count.toNat
    · rw [if_pos (show 10 < count.toNat from hlarge), batchOfBytes, if_pos hlarge, refusal?]
    · rw [if_neg (show ¬ 10 < count.toNat from hlarge)]
      by_cases hlen : rest.length = count.toNat * 13
      · obtain ⟨entries, -, hsmall, hbatch⟩ := batchOfBytes_of_length hlarge hlen
        rw [hbatch, Batch.ofEntries, dif_pos hsmall, if_neg (by omega), refusal?]
      · rw [batchOfBytes_of_length_ne hlarge hlen, if_pos (by omega), Nat.mul_comm 13,
          Nat.add_comm rest.length, refusal?]

/-- A payload is refused with the first fault of its message type that it has. -/
theorem refusal?_ofBytes (kind : MessageKind) (body : List UInt8) :
    refusal? (ofBytes kind body) = firstFault (payloadFaults kind.code body) := by
  cases kind with
  | input =>
    exact (refusal?_map _ _).trans (refusal?_ofLayout lawful_inputLayout .input body)
  | spawn => exact refusal?_spawn body
  | update =>
    exact (refusal?_map _ _).trans (refusal?_ofLayout lawful_updateLayout .update body)
  | destroy =>
    exact (refusal?_map _ _).trans (refusal?_ofLayout Layout.lawful_word32 .destroy body)
  | batch => exact refusal?_batch body
  | ping => exact refusal?_ofNothing .ping .ping body
  | pong => exact refusal?_ofNothing .pong .pong body

/-- A code that is no message type is what is found fault with. -/
theorem firstFault_of_unknown {code : UInt8} (h : MessageKind.ofCode? code = none)
    (body : List UInt8) : firstFault (payloadFaults code body) = some (.unknownType code) := by
  unfold MessageKind.ofCode? at h
  split at h <;> cases h
  unfold payloadFaults
  split <;> first | contradiction | rfl

/-- Only a payload of a message type has no fault. -/
theorem firstFault_eq_none_iff (code : UInt8) (body : List UInt8) :
    firstFault (payloadFaults code body) = none ↔ FitsType code body := by
  unfold payloadFaults FitsType
  split
  case h_5 =>
    -- a batch: the length is compared with what the count in front demands
    cases body with
    | nil => simp [firstFault]
    | cons count entries =>
      have hcount : byteAt (count :: entries) 0 = count := rfl
      simp only [firstFault_cons_eq_none_iff, hcount, List.length_cons]
      constructor
      · rintro ⟨-, hle, hlen, -⟩
        exact ⟨count, entries, rfl, by omega, by omega⟩
      · rintro ⟨count', entries', heq, hle, hlen⟩
        cases heq
        exact ⟨Nat.succ_ne_zero _, by omega, by omega, rfl⟩
  case h_8 => simp [firstFault]
  all_goals
    simp only [firstFault_cons_eq_none_iff]
    simp

end Payload

/-! ## Headers -/

namespace Header

/-- The first two bytes of a header read as a number, the least significant first. -/
theorem mark_eq (low high : UInt8) :
    low.toUInt16 ||| high.toUInt16 <<< 8 = UInt16.ofNat (low.toNat + 256 * high.toNat) := by
  apply UInt16.toNat_inj.mp
  have hlow := low.toNat_lt
  have hhigh := high.toNat_lt
  have hshift : high.toUInt16.toNat <<< 8 % 2 ^ 16 = high.toNat <<< 8 := by
    rw [UInt8.toNat_toUInt16, Nat.shiftLeft_eq]
    omega
  have hor : high.toNat <<< 8 ||| low.toNat = high.toNat <<< 8 + low.toNat :=
    (Nat.shiftLeft_add_eq_or_of_lt hlow _).symm
  rw [UInt16.toNat_or, UInt16.toNat_shiftLeft, UInt8.toNat_toUInt16, UInt16.toNat_ofNat']
  show low.toNat ||| high.toUInt16.toNat <<< 8 % 2 ^ 16 = _
  rw [hshift, Nat.or_comm, hor, Nat.shiftLeft_eq]
  omega

/-- A datagram that is long enough begins with nine bytes, and they are read as they stand. -/
theorem read_of_long {b : List UInt8} (h : 9 ≤ b.length) :
    ∃ token, layout.read b =
      some (⟨markOf b, byteAt b 2, byteAt b 3, byteAt b 4, token⟩, b.drop 9) := by
  match b, h with
  | m₀ :: m₁ :: v :: s :: c :: t₀ :: t₁ :: t₂ :: t₃ :: body, _ =>
    refine ⟨t₀.toUInt32 ||| t₁.toUInt32 <<< 8 ||| t₂.toUInt32 <<< 16 ||| t₃.toUInt32 <<< 24, ?_⟩
    rw [markOf, ← mark_eq]
    rfl

theorem refusal?_validate (b : List UInt8) :
    refusal? (validate b) = firstFault (headerFaults b) := by
  simp only [headerFaults, firstFault_cons, firstFault_nil]
  by_cases hlong : 9 ≤ b.length
  · obtain ⟨token, hread⟩ := read_of_long hlong
    rw [if_neg (Nat.not_lt.mpr hlong), validate, hread]
    simp only [List.length_drop]
    show refusal? (if markOf b ≠ 0xabcd then _ else if byteAt b 2 ≠ 1 then _ else _) = _
    split
    · rfl
    · split
      · rfl
      · split <;> rfl
  · have hread : layout.read b = none :=
      lawful_layout.read_eq_none_iff.mpr (Nat.lt_of_not_le hlong)
    rw [if_pos (Nat.lt_of_not_le hlong), validate, hread]
    rfl

theorem kind_of_validate {b body : List UInt8} {header : Header}
    (h : validate b = .ok (header, body)) : header.kind = byteAt b 4 ∧ body = b.drop 9 := by
  obtain ⟨hb, -⟩ := write_of_validate h
  subst hb
  exact ⟨rfl, rfl⟩

theorem firstFault_eq_none_iff (b : List UInt8) :
    firstFault (headerFaults b) = none ↔
      9 ≤ b.length ∧ b.take 3 = [0xcd, 0xab, 0x01] ∧ (byteAt b 3).toNat = b.length - 9 := by
  simp only [headerFaults, firstFault_cons_eq_none_iff, firstFault_nil, Nat.not_lt, ne_eq,
    Decidable.not_not, and_true]
  apply and_congr_right
  intro hlong
  rw [← and_assoc]
  apply and_congr_left
  intro _
  match b, hlong with
  | m₀ :: m₁ :: v :: _ :: _ :: _ :: _ :: _ :: _ :: _, _ =>
    show UInt16.ofNat (m₀.toNat + 256 * m₁.toNat) = 0xabcd ∧ v = 1 ↔
      [m₀, m₁, v] = [0xcd, 0xab, 0x01]
    have hlow := m₀.toNat_lt
    have hhigh := m₁.toNat_lt
    rw [← UInt16.toNat_inj, UInt16.toNat_ofNat']
    simp only [List.cons.injEq, ← UInt8.toNat_inj, and_true]
    show _ = 0xabcd ∧ _ = 0x01 ↔ _ = 0xcd ∧ _ = 0xab ∧ _ = 0x01
    omega

end Header

/-! ## Packets -/

namespace Packet

theorem refusal?_decode (b : List UInt8) : refusal? (decode b) = firstFault (faults b) := by
  rw [faults, firstFault_append, ← Header.refusal?_validate]
  cases hvalid : Header.validate b with
  | error e => simp [decode, hvalid, refusal?, bind, Except.bind]
  | ok r =>
    obtain ⟨header, body⟩ := r
    obtain ⟨hkind, hbody⟩ := Header.kind_of_validate hvalid
    subst hbody
    rw [← hkind]
    simp only [decode, hvalid, bind, Except.bind, refusal?, Option.none_or]
    cases hcode : MessageKind.ofCode? header.kind with
    | none => exact (Payload.firstFault_of_unknown hcode _).symm
    | some kind =>
      rw [← MessageKind.code_of_ofCode? hcode, ← Payload.refusal?_ofBytes]
      show refusal? ((Payload.ofBytes kind (b.drop 9)).map _) = _
      rw [refusal?_map]

theorem firstFault_faults_eq_none_iff (b : List UInt8) :
    firstFault (faults b) = none ↔ Documented b := by
  rw [faults, firstFault_append, Option.or_eq_none_iff, Header.firstFault_eq_none_iff,
    Payload.firstFault_eq_none_iff]
  constructor
  · rintro ⟨⟨hlong, hmark, hsize⟩, hfits⟩
    exact ⟨hlong, hmark, hsize, hfits⟩
  · intro h
    exact ⟨⟨h.long, h.marked, h.sized⟩, h.fits⟩

end Packet

/-! ## A reader over a buffer -/

/-- What stops a reader over a buffer. -/
inductive Halt where
  | refused (e : Error)
  /-- A read wants bytes behind the end. -/
  | overrun
deriving DecidableEq, Repr

/-- The value of a read that nothing guards. -/
def trust {α : Type} : Option (α × List UInt8) → Except Halt α
  | some (a, _) => .ok a
  | none => .error .overrun

/-- Compares a length, and then reads a value without looking at lengths again. -/
def scanLayout {α : Type} (kind : MessageKind) (expected : Nat) (l : Layout α)
    (body : List UInt8) : Except Halt α :=
  if body.length = expected then trust (l.read body)
  else .error (.refused (.payloadLength kind expected body.length))

/-- The entries of a batch, with the length compared to what the count in front demands. -/
def scanBatch : List UInt8 → Except Halt Batch
  | [] => .error (.refused (.payloadLength .batch 1 0))
  | count :: rest =>
    if maxEntries < count.toNat then .error (.refused (.batchTooLarge count.toNat))
    else if 1 + rest.length = 1 + count.toNat * 13 then do
      let entries ← trust (entryLayout.readMany count.toNat rest)
      (Batch.ofEntries entries).mapError .refused
    else .error (.refused (.payloadLength .batch (1 + count.toNat * 13) (1 + rest.length)))

/-- A payload with no bytes, of which nothing is read. -/
def scanNothing (kind : MessageKind) (payload : Payload) (body : List UInt8) :
    Except Halt Payload :=
  if body.length = 0 then .ok payload
  else .error (.refused (.payloadLength kind 0 body.length))

def Payload.scan (kind : MessageKind) (body : List UInt8) : Except Halt Payload :=
  match kind with
  | .input => (scanLayout .input 8 inputLayout body).map .input
  | .spawn => do
    let raw ← scanLayout .spawn 39 RawSpawn.layout body
    (raw.toSpawn.mapError .refused).map .spawn
  | .update => (scanLayout .update 21 updateLayout body).map .update
  | .destroy => (scanLayout .destroy 4 .word32 body).map .destroy
  | .batch => (scanBatch body).map .batch
  | .ping => scanNothing .ping .ping body
  | .pong => scanNothing .pong .pong body

def Header.scan (datagram : List UInt8) : Except Halt (Header × List UInt8) :=
  if datagram.length < 9 then .error (.refused (.tooShort datagram.length))
  else do
    let header ← trust (Header.layout.read datagram)
    if header.magic ≠ Wire.magic then .error (.refused (.badMagic header.magic))
    else if header.version ≠ Wire.version then .error (.refused (.badVersion header.version))
    else if header.payloadSize.toNat ≠ datagram.length - 9 then
      .error (.refused (.sizeMismatch header.payloadSize.toNat (datagram.length - 9)))
    else .ok (header, datagram.drop 9)

def Packet.scan (datagram : List UInt8) : Except Halt Packet := do
  let (header, body) ← Header.scan datagram
  match MessageKind.ofCode? header.kind with
  | none => throw (.refused (.unknownType header.kind))
  | some kind => return ⟨header.token, ← Payload.scan kind body⟩

theorem mapError_map {ε ε' α β : Type} (x : Except ε α) (f : α → β) (g : ε → ε') :
    (x.map f).mapError g = (x.mapError g).map f := by
  cases x <;> rfl

theorem scanLayout_eq {α : Type} {l : Layout α} (hl : l.Lawful) (kind : MessageKind)
    (body : List UInt8) :
    scanLayout kind l.width l body = (Payload.ofLayout kind l body).mapError .refused := by
  by_cases hlen : body.length = l.width
  · obtain ⟨a, ha⟩ := hl.read_of_length hlen
    rw [scanLayout, if_pos hlen, ha, Payload.ofLayout, Layout.readAll, ha]
    rfl
  · rw [scanLayout, if_neg hlen, Payload.ofLayout, hl.readAll_eq_none_iff.mpr hlen]
    rfl

theorem map_scanLayout_eq {α : Type} {l : Layout α} (hl : l.Lawful) (kind : MessageKind)
    (f : α → Payload) (body : List UInt8) :
    (scanLayout kind l.width l body).map f =
      ((Payload.ofLayout kind l body).map f).mapError .refused := by
  rw [mapError_map, scanLayout_eq hl]

theorem scanBatch_eq (body : List UInt8) :
    scanBatch body = (Payload.batchOfBytes body).mapError .refused := by
  cases body with
  | nil => rfl
  | cons count rest =>
    rw [scanBatch]
    by_cases hlarge : maxEntries < count.toNat
    · rw [if_pos hlarge, Payload.batchOfBytes, if_pos hlarge]
      rfl
    · rw [if_neg hlarge]
      by_cases hlen : rest.length = count.toNat * 13
      · obtain ⟨entries, hread, -, hbatch⟩ := Payload.batchOfBytes_of_length hlarge hlen
        rw [if_pos (by rw [hlen]), hread, hbatch]
        rfl
      · rw [if_neg (by omega), Payload.batchOfBytes_of_length_ne hlarge hlen]
        rfl

theorem scanNothing_eq (kind : MessageKind) (payload : Payload) (body : List UInt8) :
    scanNothing kind payload body = (Payload.ofNothing kind payload body).mapError .refused := by
  by_cases hb : body = []
  · rw [scanNothing, if_pos (by rw [hb]; rfl), Payload.ofNothing, if_pos hb]
    rfl
  · rw [scanNothing, if_neg (by simpa using hb), Payload.ofNothing, if_neg hb]
    rfl

theorem Payload.scan_eq (kind : MessageKind) (body : List UInt8) :
    Payload.scan kind body = (Payload.ofBytes kind body).mapError .refused := by
  -- every kind is scanned by its layout, and a spawn is checked once more for its kind
  cases kind with
  | input => exact map_scanLayout_eq lawful_inputLayout .input .input body
  | spawn =>
    show (scanLayout .spawn RawSpawn.layout.width RawSpawn.layout body >>= fun raw =>
      (raw.toSpawn.mapError .refused).map Payload.spawn) = _
    rw [scanLayout_eq RawSpawn.lawful_layout]
    simp only [Payload.ofBytes]
    cases Payload.ofLayout .spawn RawSpawn.layout body with
    | error e => rfl
    | ok raw =>
      show (raw.toSpawn.mapError Halt.refused).map Payload.spawn =
        (raw.toSpawn >>= fun s => pure (Payload.spawn s)).mapError .refused
      cases raw.toSpawn <;> rfl
  | update => exact map_scanLayout_eq lawful_updateLayout .update .update body
  | destroy => exact map_scanLayout_eq Layout.lawful_word32 .destroy .destroy body
  | batch =>
    show (scanBatch body).map Payload.batch =
      ((Payload.batchOfBytes body).map Payload.batch).mapError .refused
    rw [mapError_map, scanBatch_eq]
  | ping => exact scanNothing_eq .ping .ping body
  | pong => exact scanNothing_eq .pong .pong body

theorem Header.scan_eq (b : List UInt8) : Header.scan b = (validate b).mapError .refused := by
  by_cases hlong : 9 ≤ b.length
  · obtain ⟨token, hread⟩ := read_of_long hlong
    rw [Header.scan, if_neg (Nat.not_lt.mpr hlong), validate, hread]
    simp only [trust, bind, Except.bind, List.length_drop]
    split
    · rfl
    · split
      · rfl
      · split <;> rfl
  · have hread : layout.read b = none :=
      lawful_layout.read_eq_none_iff.mpr (Nat.lt_of_not_le hlong)
    rw [Header.scan, if_pos (Nat.lt_of_not_le hlong), validate, hread]
    rfl

namespace Packet

/-- The comparisons of length that the reader over a buffer makes are enough. -/
theorem scan_eq (b : List UInt8) : scan b = (decode b).mapError .refused := by
  rw [scan, Header.scan_eq]
  cases hvalid : Header.validate b with
  | error e =>
    simp only [decode, hvalid, bind, Except.bind]
    rfl
  | ok r =>
    have hkept : (Except.ok r : Except Error _).mapError Halt.refused = .ok r := rfl
    simp only [decode, hvalid, hkept, bind, Except.bind]
    cases MessageKind.ofCode? r.1.kind with
    | none => rfl
    | some kind =>
      dsimp only
      rw [Payload.scan_eq]
      cases Payload.ofBytes kind r.2 <;> rfl

theorem scan_ne_overrun (b : List UInt8) : scan b ≠ .error .overrun := by
  rw [scan_eq]
  intro h
  cases hdecode : decode b <;> rw [hdecode] at h <;> cases h

/-! ## The cut of a datagram -/

/-- The size byte cannot declare more than the longest packet has. -/
theorem validate_of_long {b : List UInt8} (h : maxSize < b.length) :
    ∃ e, Header.validate b = .error e := by
  cases hvalid : Header.validate b with
  | error e => exact ⟨e, rfl⟩
  | ok r =>
    exfalso
    have hnone : firstFault (headerFaults b) = none := by
      rw [← Header.refusal?_validate, hvalid]
      rfl
    obtain ⟨-, -, hsize⟩ := (Header.firstFault_eq_none_iff b).mp hnone
    have hbyte := (byteAt b 3).toNat_lt
    rw [maxSize] at h
    omega

/-- The receive loop sees a datagram whole, or its header is refused with the cut and without. -/
theorem take_readLimit (b : List UInt8) :
    b.take Gateway.readLimit = b ∨
      (∃ e, Header.validate (b.take Gateway.readLimit) = .error e) ∧
        ∃ e, Header.validate b = .error e := by
  rcases Nat.lt_or_ge maxSize b.length with hlong | hshort
  · refine .inr ⟨validate_of_long ?_, validate_of_long hlong⟩
    rw [List.length_take, Gateway.readLimit]
    omega
  · exact .inl (List.take_of_length_le (Nat.le_succ_of_le hshort))

theorem decode_of_validate {b : List UInt8} {e : Error} (h : Header.validate b = .error e) :
    decode b = .error e := by
  simp only [decode, h, bind, Except.bind]

theorem decode_take_eq_ok_iff (b : List UInt8) (p : Packet) :
    decode (b.take Gateway.readLimit) = .ok p ↔ decode b = .ok p := by
  rcases take_readLimit b with hwhole | ⟨⟨e, hcut⟩, e', hall⟩
  · rw [hwhole]
  · rw [decode_of_validate hcut, decode_of_validate hall]
    simp

theorem authenticate?_take (g : Gateway) (source : Endpoint) (b : List UInt8) :
    g.authenticate? source (b.take Gateway.readLimit) = g.authenticate? source b := by
  rcases take_readLimit b with hwhole | ⟨⟨e, hcut⟩, e', hall⟩
  · rw [hwhole]
  · simp only [Gateway.authenticate?, hcut, hall]

/-! ## The whole of it -/

/-- **A datagram is taken exactly if it is as documented, and refused with its first fault.** A
reader over a buffer that compares the same lengths gives the same answers and never reads behind
the end. The receive loop cuts long datagrams; what is taken and what comes out of it is the same
with the cut and without, and so is all that the gateway does with the datagram. -/
theorem decode_documented (b : List UInt8) :
    ((∃ p, decode b = .ok p) ↔ Documented b) ∧
      (∀ e, decode b = .error e ↔ firstFault (faults b) = some e) ∧
      scan b = (decode b).mapError .refused ∧
      scan b ≠ .error .overrun ∧
      (∀ p, decode (b.take Gateway.readLimit) = .ok p ↔ decode b = .ok p) ∧
      ∀ (g : Gateway) (source : Endpoint),
        g.authenticate? source (b.take Gateway.readLimit) = g.authenticate? source b := by
  refine ⟨?_, ?_, scan_eq b, scan_ne_overrun b, decode_take_eq_ok_iff b, fun g source =>
    authenticate?_take g source b⟩
  · rw [← refusal?_eq_none_iff, refusal?_decode, firstFault_faults_eq_none_iff]
  · intro e
    rw [← refusal?_eq_some_iff, refusal?_decode]

end Packet

end Skirmish.Wire

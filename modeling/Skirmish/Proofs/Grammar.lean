import Mathlib.Logic.Relation
import Skirmish.Proofs.Lexing
import Skirmish.Proofs.Spelling
/-!
# What the lines of the control channel mean

A line is a keyword and, behind it, words. All that the reader takes from the words is the value of
each key that the keyword asks for, found on the last word with that key (`Holds`); the rest may be
put in, left out or moved about (`Edit`). The fields are read in a fixed order and the first one
that will not do decides what is answered (`FirstBad`); if all of them will do, the message says
what they say (`Says`). None of these descriptions runs the reader, and `Message.ofLine_grammar` is
that the reader answers by them on every line.
-/

namespace Skirmish.Control

open Text (Spaced IsBlankText IsNumeral)

/-! ## What the words hold -/

namespace Line

/-- A word is cut at its first `=` into a key and a value. -/
def IsField (word : List Char) (key value : String) : Prop :=
  '=' ∉ key.toList ∧ word = key.toList ++ '=' :: value.toList

/-- The value that the words hold for a key: of the words with that key the last one counts, and if
there are none there is no value. -/
def Holds (words : List (List Char)) (key : String) : Option String → Prop
  | some value => ∃ before word after, words = before ++ word :: after ∧ IsField word key value ∧
      ∀ other ∈ after, ∀ value, ¬ IsField other key value
  | none => ∀ word ∈ words, ∀ value, ¬ IsField word key value

/-- Words that no key of a list asks for may be put in anywhere, and words that have no key in
common may change places. -/
inductive Edit (keys : List String) : List (List Char) → List (List Char) → Prop where
  | insert {before after : List (List Char)} {word : List Char} :
    (∀ key ∈ keys, ∀ value, ¬ IsField word key value) →
    Edit keys (before ++ after) (before ++ word :: after)
  | reorder {before group group' after : List (List Char)} :
    group.Perm group' →
    group.Pairwise (fun a b => ∀ key v w, IsField a key v → ¬ IsField b key w) →
    Edit keys (before ++ (group ++ after)) (before ++ (group' ++ after))

theorem fieldOfWord_eq_some_iff {word : List Char} {key value : String} :
    fieldOfWord word = some (key, value) ↔ IsField word key value := by
  rw [fieldOfWord, Option.map_eq_some_iff]
  refine ⟨fun h => ?_, fun h => ?_⟩
  · obtain ⟨⟨before, after⟩, hsplit, h⟩ := h
    obtain ⟨rfl, rfl⟩ := Prod.mk.inj h
    obtain ⟨hword, hbefore⟩ := Text.splitFirst_eq_some_iff.mp hsplit
    rw [IsField, String.toList_ofList, String.toList_ofList]
    exact ⟨hbefore, hword⟩
  · obtain ⟨hkey, hword⟩ := h
    refine ⟨(key.toList, value.toList), Text.splitFirst_eq_some_iff.mpr ⟨hword, hkey⟩, ?_⟩
    simp only [String.ofList_toList]

def hasKey (key : String) (word : List Char) : Bool := (fieldOfWord word).any (·.1 = key)

theorem hasKey_iff {key : String} {word : List Char} :
    hasKey key word = true ↔ ∃ value, IsField word key value := by
  rw [hasKey, Option.any_eq_true]
  refine ⟨fun ⟨(k, value), hfield, hk⟩ => ?_, fun ⟨value, h⟩ => ?_⟩
  · obtain rfl : k = key := of_decide_eq_true hk
    exact ⟨value, fieldOfWord_eq_some_iff.mp hfield⟩
  · exact ⟨(key, value), fieldOfWord_eq_some_iff.mpr h, decide_eq_true rfl⟩

theorem not_hasKey_iff {key : String} {word : List Char} :
    hasKey key word = false ↔ ∀ value, ¬ IsField word key value := by
  rw [← Bool.not_eq_true, hasKey_iff, not_exists]

/-- The line that a keyword and the words behind it are taken for. -/
def ofWords (keyword : String) (words : List (List Char)) : Line :=
  ⟨keyword, words.filterMap fieldOfWord⟩

/-- A key is looked up among the words with that key. -/
theorem value?_ofWords (keyword : String) (words : List (List Char)) (key : String) :
    (ofWords keyword words).value? key =
      ((words.reverse.find? (hasKey key)).bind fieldOfWord).map Prod.snd := by
  rw [value?, ofWords, ← List.filterMap_reverse, List.find?_filterMap]
  rfl

theorem find?_hasKey_eq (words : List (List Char)) (key : String) :
    words.reverse.find? (hasKey key) = (words.filter (hasKey key)).getLast? := by
  rw [← List.head?_filter, List.filter_reverse, List.head?_reverse]

/-- The words hold for a key what the line is found to have for it. -/
theorem holds_iff {keyword key : String} {words : List (List Char)} {value : Option String} :
    Holds words key value ↔ (ofWords keyword words).value? key = value := by
  rw [value?_ofWords]
  -- a key has no value if no word is a field of it, and otherwise that of the last one
  cases value with
  | none =>
    have hfield : ∀ word, hasKey key word = true → ∃ value, fieldOfWord word = some (key, value) := by
      intro word hword
      obtain ⟨value, hvalue⟩ := hasKey_iff.mp hword
      exact ⟨value, fieldOfWord_eq_some_iff.mpr hvalue⟩
    refine ⟨fun hnone => ?_, fun hnone => ?_⟩
    · rw [List.find?_eq_none.mpr fun word hword => ?_]
      · rfl
      · rw [not_hasKey_iff.mpr (hnone word (List.mem_reverse.mp hword))]
        exact Bool.false_ne_true
    · intro word hword
      rw [← not_hasKey_iff]
      cases hfind : words.reverse.find? (hasKey key) with
      | none => simpa using List.find?_eq_none.mp hfind word (List.mem_reverse.mpr hword)
      | some found =>
        obtain ⟨value, hvalue⟩ := hfield found (List.find?_some hfind)
        rw [hfind, Option.bind_some, hvalue] at hnone
        cases hnone
  | some value =>
    refine ⟨fun ⟨before, word, after, hwords, hword, hafter⟩ => ?_, fun hsome => ?_⟩
    · -- the words are searched from the back, so the last field is found first
      have hfind : words.reverse.find? (hasKey key) = some word := by
        rw [List.find?_eq_some_iff_append]
        refine ⟨hasKey_iff.mpr ⟨value, hword⟩, after.reverse, before.reverse, ?_, ?_⟩
        · rw [hwords]
          simp
        · intro other hother
          rw [not_hasKey_iff.mpr (hafter other (List.mem_reverse.mp hother))]
          rfl
      rw [hfind, Option.bind_some, fieldOfWord_eq_some_iff.mpr hword]
      rfl
    · obtain ⟨⟨k, v⟩, hfield, rfl⟩ := Option.map_eq_some_iff.mp hsome
      obtain ⟨word, hfind, hfield⟩ := Option.bind_eq_some_iff.mp hfield
      obtain ⟨hkey, later, earlier, hwords, hlater⟩ := List.find?_eq_some_iff_append.mp hfind
      have hk : k = key := by
        rw [hasKey, hfield] at hkey
        simpa using hkey
      -- what stands before the field when searching stands after it in the words, and says nothing
      -- of it
      refine ⟨earlier.reverse, word, later.reverse, ?_, ?_, ?_⟩
      · rw [← List.reverse_reverse words, hwords]
        simp
      · rw [← hk]
        exact fieldOfWord_eq_some_iff.mp hfield
      · intro other hother
        rw [← not_hasKey_iff]
        simpa using hlater other (List.mem_reverse.mp hother)

theorem holds_of_filter_eq {words words' : List (List Char)} {key : String}
    (h : words.filter (hasKey key) = words'.filter (hasKey key)) (value : Option String) :
    Holds words key value ↔ Holds words' key value := by
  have hvalue : (ofWords "" words).value? key = (ofWords "" words').value? key := by
    rw [value?_ofWords, value?_ofWords, find?_hasKey_eq, find?_hasKey_eq, h]
  rw [holds_iff, holds_iff, hvalue]

/-- Of words that have no key in common, at most one has a given key. -/
theorem filter_hasKey_perm {group group' : List (List Char)} (hperm : group.Perm group')
    (hkeys : group.Pairwise (fun a b => ∀ key v w, IsField a key v → ¬ IsField b key w))
    (key : String) : group.filter (hasKey key) = group'.filter (hasKey key) := by
  have hperm := hperm.filter (hasKey key)
  have hkeys := hkeys.filter (hasKey key)
  have hall : ∀ word ∈ group.filter (hasKey key), ∃ value, IsField word key value :=
    fun word hword => hasKey_iff.mp (List.mem_filter.mp hword).2
  match hfilter : group.filter (hasKey key) with
  | [] =>
    rw [hfilter] at hperm
    exact (List.nil_perm.mp hperm).symm
  | [word] =>
    rw [hfilter] at hperm
    exact (List.singleton_perm.mp hperm)
  | a :: b :: rest =>
    rw [hfilter] at hkeys hall
    obtain ⟨v, hv⟩ := hall a List.mem_cons_self
    obtain ⟨w, hw⟩ := hall b (List.mem_cons_of_mem _ List.mem_cons_self)
    exact absurd hw ((List.pairwise_cons.mp hkeys).1 b List.mem_cons_self key v w hv)

theorem Edit.filter_eq {keys : List String} {words words' : List (List Char)}
    (h : Edit keys words words') {key : String} (hkey : key ∈ keys) :
    words.filter (hasKey key) = words'.filter (hasKey key) := by
  cases h with
  | insert hword =>
    have hnone := not_hasKey_iff.mpr (hword key hkey)
    rw [List.filter_append, List.filter_append, List.filter_cons_of_neg (by simp [hnone])]
  | reorder hperm hkeys =>
    simp only [List.filter_append, filter_hasKey_perm hperm hkeys key]

/-- **Edits do not change what is held for the keys asked for.** -/
theorem holds_of_edits {keys : List String} {words words' : List (List Char)}
    (h : Relation.EqvGen (Edit keys) words words') {key : String} (hkey : key ∈ keys)
    (value : Option String) : Holds words key value ↔ Holds words' key value := by
  induction h with
  | rel _ _ h => exact holds_of_filter_eq (h.filter_eq hkey) value
  | refl _ => exact Iff.rfl
  | symm _ _ _ ih => exact ih.symm
  | trans _ _ _ _ _ ih ih' => exact ih.trans ih'

end Line

open Line (IsField Holds Edit)

/-! ## Which fields will do -/

/-- The fields that a message may be refused for. -/
inductive Field where
  | username
  | id
  | token
  | udpPort
  | reason
deriving DecidableEq, Repr

namespace Field

def key : Field → String
  | username => "username"
  | id => "id"
  | token => "token"
  | udpPort => "udp_port"
  | reason => "reason"

/-- The base of a field that is a number. -/
def base? : Field → Option Nat
  | id | udpPort => some 10
  | token => some 16
  | username | reason => none

/-- Why the value held for a field will not do. A number has thirty-two bits before it is narrowed
to the eight of an id, reported by its value, or the sixteen of a port, reported as it stands. -/
inductive Rejects : Field → Option String → Error → Prop where
  | missing (field : Field) : Rejects field none (.missingField field.key)
  | malformed {field : Field} {base : Nat} {raw : String} :
    field.base? = some base → (∀ n, IsNumeral base raw.toList n → UInt32.size ≤ n) →
    Rejects field (some raw) (.invalidField field.key raw)
  | wideId {raw : String} {n : Nat} :
    IsNumeral 10 raw.toList n → UInt8.size ≤ n → n < UInt32.size →
    Rejects id (some raw) (.invalidField "id" (toString n))
  | widePort {raw : String} {n : Nat} :
    IsNumeral 10 raw.toList n → UInt16.size ≤ n → n < UInt32.size →
    Rejects udpPort (some raw) (.invalidField "udp_port" raw)
  | unknown {raw : String} :
    (∀ refusal : Refusal, raw ≠ refusal.text) →
    Rejects reason (some raw) (.invalidField "reason" raw)

end Field

/-- The first field of a list whose value will not do, and why. -/
inductive FirstBad (words : List (List Char)) : List Field → Error → Prop where
  | here {field : Field} {fields : List Field} {value : Option String} {e : Error} :
    Holds words field.key value → field.Rejects value e → FirstBad words (field :: fields) e
  | later {field : Field} {fields : List Field} {value : Option String} {e : Error} :
    Holds words field.key value → (∀ e, ¬ field.Rejects value e) → FirstBad words fields e →
    FirstBad words (field :: fields) e

/-- A field is refused for what is wrong with it, not for the keyword. -/
theorem FirstBad.is_field_error {words : List (List Char)} {fields : List Field} {e : Error}
    (h : FirstBad words fields e) : e ≠ .empty ∧ ∀ keyword, e ≠ .unknownType keyword := by
  induction h with
  | here _ hbad => cases hbad <;> simp
  | later _ _ _ ih => exact ih

theorem FirstBad.mono {words words' : List (List Char)} {fields : List Field} {e : Error}
    (hholds : ∀ field ∈ fields, ∀ value, Holds words field.key value → Holds words' field.key value)
    (h : FirstBad words fields e) : FirstBad words' fields e := by
  induction h with
  | here hvalue hbad => exact .here (hholds _ List.mem_cons_self _ hvalue) hbad
  | later hvalue hgood _ ih =>
    exact .later (hholds _ List.mem_cons_self _ hvalue) hgood
      (ih fun field hfield => hholds field (List.mem_cons_of_mem _ hfield))

namespace Line

/-! ## Reading one field -/

theorem value_eq_ok_iff {line : Line} {key v : String} :
    line.value key = .ok v ↔ line.value? key = some v := by
  unfold value
  cases line.value? key with
  | none => simp
  | some w => simp

theorem value_eq_error_iff {line : Line} {key : String} {e : Error} :
    line.value key = .error e ↔ line.value? key = none ∧ e = .missingField key := by
  unfold value
  cases line.value? key with
  | none => simp [eq_comm]
  | some w => simp

theorem number_eq_ok_iff {line : Line} {key : String} {base n : Nat} :
    line.number key base = .ok n ↔
      ∃ raw, line.value? key = some raw ∧ IsNumeral base raw.toList n ∧ n < UInt32.size := by
  unfold number
  simp only [bind_eq_ok_iff, value_eq_ok_iff, ← Text.readBelow_eq_some_iff]
  refine exists_congr fun raw => and_congr_right fun _ => ?_
  cases Text.readBelow UInt32.size base raw.toList with
  | none => simp [throw, throwThe, MonadExceptOf.throw]
  | some m => simp [pure, Except.pure]

theorem number_eq_error_iff {line : Line} {key : String} {base : Nat} {e : Error} :
    line.number key base = .error e ↔
      (line.value? key = none ∧ e = .missingField key) ∨
      ∃ raw, line.value? key = some raw ∧
        (∀ n, IsNumeral base raw.toList n → UInt32.size ≤ n) ∧ e = .invalidField key raw := by
  unfold number
  simp only [bind_eq_error_iff, value_eq_error_iff, value_eq_ok_iff]
  refine or_congr Iff.rfl (exists_congr fun raw => and_congr_right fun _ => ?_)
  have hread : ∀ n, Text.readBelow UInt32.size base raw.toList = some n ↔
      IsNumeral base raw.toList n ∧ n < UInt32.size := fun n => Text.readBelow_eq_some_iff
  -- no number below the bound can be read: either there is none, or it is too great
  cases hbelow : Text.readBelow UInt32.size base raw.toList with
  | none =>
    have hwide : ∀ n, IsNumeral base raw.toList n → UInt32.size ≤ n := by
      intro n hn
      by_contra hlt
      rw [(hread n).mpr ⟨hn, Nat.lt_of_not_le hlt⟩] at hbelow
      cases hbelow
    refine ⟨fun h => ⟨hwide, (Except.error.inj h).symm⟩, fun ⟨_, h⟩ => ?_⟩
    rw [h]
    rfl
  | some m =>
    obtain ⟨hm, hlt⟩ := (hread m).mp hbelow
    refine ⟨fun h => absurd h nofun, fun ⟨hwide, _⟩ => ?_⟩
    exact absurd (hwide m hm) (Nat.not_le_of_lt hlt)

section Narrowing

variable {α : Type} {toNat : α → Nat} {ofNat : Nat → α} {bound base : Nat} {line : Line}
  {key : String} {wide : Nat → Error}

/-- A number that fits a narrower type is what the text comes to. -/
theorem narrow_eq_ok_iff (hto : ∀ n, n < bound → toNat (ofNat n) = n)
    (hof : ∀ a, ofNat (toNat a) = a) (hlt : ∀ a, toNat a < bound) (hbound : bound ≤ UInt32.size)
    {a : α} :
    (line.number key base >>= fun n =>
        if n < bound then (pure (ofNat n) : Except Error α) else throw (wide n)) = .ok a ↔
      ∃ raw, line.value? key = some raw ∧ IsNumeral base raw.toList (toNat a) := by
  simp only [bind_eq_ok_iff, number_eq_ok_iff]
  refine ⟨fun ⟨n, ⟨raw, hraw, hn, _⟩, h⟩ => ?_, fun ⟨raw, hraw, hn⟩ => ?_⟩
  · split at h
    · rename_i hlt
      obtain rfl := Except.ok.inj h
      rw [hto n hlt]
      exact ⟨raw, hraw, hn⟩
    · cases h
  · refine ⟨toNat a, ⟨raw, hraw, hn, Nat.lt_of_lt_of_le (hlt a) hbound⟩, ?_⟩
    rw [if_pos (hlt a), hof]
    rfl

/-- A number that does not fit, or none at all. -/
theorem narrow_eq_error_iff {e : Error} :
    (line.number key base >>= fun n =>
        if n < bound then (pure (ofNat n) : Except Error α) else throw (wide n)) = .error e ↔
      line.number key base = .error e ∨
      ∃ raw n, line.value? key = some raw ∧ IsNumeral base raw.toList n ∧ bound ≤ n ∧
        n < UInt32.size ∧ e = wide n := by
  simp only [bind_eq_error_iff, number_eq_ok_iff]
  refine or_congr Iff.rfl
    ⟨fun ⟨n, ⟨raw, hraw, hn, hlt⟩, h⟩ => ?_, fun ⟨raw, n, hraw, hn, hwide, hlt, he⟩ => ?_⟩
  · split at h
    · cases h
    · rename_i hwide
      exact ⟨raw, n, hraw, hn, Nat.le_of_not_lt hwide, hlt, (Except.error.inj h).symm⟩
  · refine ⟨n, ⟨raw, hraw, hn, hlt⟩, ?_⟩
    rw [if_neg (Nat.not_lt_of_le hwide), he]
    rfl

end Narrowing

theorem playerId_eq_ok_iff {line : Line} {id : UInt8} :
    line.playerId = .ok id ↔
      ∃ raw, line.value? "id" = some raw ∧ IsNumeral 10 raw.toList id.toNat :=
  narrow_eq_ok_iff (fun _ => UInt8.toNat_ofNat_of_lt') (fun _ => UInt8.ofNat_toNat)
    UInt8.toNat_lt (by decide)

theorem udpPort_eq_ok_iff {line : Line} {port : UInt16} :
    line.udpPort = .ok port ↔
      ∃ raw, line.value? "udp_port" = some raw ∧ IsNumeral 10 raw.toList port.toNat :=
  narrow_eq_ok_iff (fun _ => UInt16.toNat_ofNat_of_lt') (fun _ => UInt16.ofNat_toNat)
    UInt16.toNat_lt (by decide)

theorem token_eq_ok_iff {line : Line} {token : UInt32} :
    line.token = .ok token ↔
      ∃ raw, line.value? "token" = some raw ∧ IsNumeral 16 raw.toList token.toNat := by
  unfold Line.token
  simp only [bind_eq_ok_iff, number_eq_ok_iff]
  refine ⟨fun ⟨n, ⟨raw, hraw, hn, hlt⟩, h⟩ => ?_, fun ⟨raw, hraw, hn⟩ => ?_⟩
  · obtain rfl := Except.ok.inj h
    rw [UInt32.toNat_ofNat_of_lt' hlt]
    exact ⟨raw, hraw, hn⟩
  · refine ⟨token.toNat, ⟨raw, hraw, hn, token.toNat_lt⟩, ?_⟩
    rw [UInt32.ofNat_toNat]
    rfl

/-! ## A field that will not do -/

theorem username_eq_error_iff {line : Line} {e : Error} :
    line.value "username" = .error e ↔ Field.username.Rejects (line.value? "username") e := by
  rw [value_eq_error_iff]
  refine ⟨fun ⟨hnone, he⟩ => ?_, fun h => ?_⟩
  · rw [hnone, he]
    exact .missing .username
  · generalize line.value? "username" = value at h
    cases h with
    | missing => exact ⟨rfl, rfl⟩
    | malformed hbase => cases hbase

/-- A field that is a number is refused before it is narrowed if it is missing or no number. -/
theorem rejects_of_number_eq_error {line : Line} {field : Field} {base : Nat} {e : Error}
    (hbase : field.base? = some base) (h : line.number field.key base = .error e) :
    field.Rejects (line.value? field.key) e := by
  rcases number_eq_error_iff.mp h with ⟨hnone, rfl⟩ | ⟨raw, hraw, hwide, rfl⟩
  · rw [hnone]
    exact .missing field
  · rw [hraw]
    exact .malformed hbase hwide

theorem playerId_eq_error_iff {line : Line} {e : Error} :
    line.playerId = .error e ↔ Field.id.Rejects (line.value? "id") e := by
  rw [playerId, narrow_eq_error_iff]
  refine ⟨fun h => ?_, fun h => ?_⟩
  · rcases h with h | ⟨raw, n, hraw, hn, hwide, hlt, rfl⟩
    · exact rejects_of_number_eq_error rfl h
    · rw [hraw]
      exact .wideId hn hwide hlt
  · rw [number_eq_error_iff]
    generalize line.value? "id" = value at h ⊢
    cases h with
    | missing => exact .inl (.inl ⟨rfl, rfl⟩)
    | @malformed _ _ raw hbase hwide =>
      obtain rfl := Option.some.inj hbase
      exact .inl (.inr ⟨raw, rfl, hwide, rfl⟩)
    | @wideId raw n hn hwide hlt => exact .inr ⟨raw, n, rfl, hn, hwide, hlt, rfl⟩

theorem udpPort_eq_error_iff {line : Line} {e : Error} :
    line.udpPort = .error e ↔ Field.udpPort.Rejects (line.value? "udp_port") e := by
  rw [udpPort, narrow_eq_error_iff]
  refine ⟨fun h => ?_, fun h => ?_⟩
  · rcases h with h | ⟨raw, n, hraw, hn, hwide, hlt, rfl⟩
    · exact rejects_of_number_eq_error rfl h
    · rw [hraw]
      exact .widePort hn hwide hlt
  · rw [number_eq_error_iff]
    generalize line.value? "udp_port" = value at h ⊢
    cases h with
    | missing => exact .inl (.inl ⟨rfl, rfl⟩)
    | @malformed _ _ raw hbase hwide =>
      obtain rfl := Option.some.inj hbase
      exact .inl (.inr ⟨raw, rfl, hwide, rfl⟩)
    | @widePort raw n hn hwide hlt => exact .inr ⟨raw, n, rfl, hn, hwide, hlt, rfl⟩

theorem token_eq_error_iff {line : Line} {e : Error} :
    line.token = .error e ↔ Field.token.Rejects (line.value? "token") e := by
  unfold Line.token
  rw [bind_eq_error_iff]
  refine ⟨fun h => ?_, fun h => ?_⟩
  · rcases h with h | ⟨n, _, h⟩
    · exact rejects_of_number_eq_error rfl h
    · cases h
  · rw [number_eq_error_iff]
    generalize line.value? "token" = value at h ⊢
    cases h with
    | missing => exact .inl (.inl ⟨rfl, rfl⟩)
    | @malformed _ _ raw hbase hwide =>
      obtain rfl := Option.some.inj hbase
      exact .inl (.inr ⟨raw, rfl, hwide, rfl⟩)

/-- The reason that a line gives, read as one of those there are. -/
theorem ofText_eq_ok_iff {text : String} {refusal : Refusal} :
    Refusal.ofText text = .ok refusal ↔ text = refusal.text := by
  refine ⟨fun h => ?_, fun h => by rw [h, Refusal.ofText_text]⟩
  unfold Refusal.ofText at h
  split at h
  · cases h
    assumption
  · split at h
    · cases h
      assumption
    · split at h
      · cases h
        assumption
      · cases h

theorem ofText_eq_error_iff {text : String} {e : Error} :
    Refusal.ofText text = .error e ↔
      (∀ refusal : Refusal, text ≠ refusal.text) ∧ e = .invalidField "reason" text := by
  have hok : (∃ refusal, Refusal.ofText text = .ok refusal) ∨
      Refusal.ofText text = .error (.invalidField "reason" text) := by
    unfold Refusal.ofText
    split_ifs <;> simp
  rcases hok with ⟨refusal, h⟩ | h
  · rw [h]
    refine ⟨nofun, fun ⟨hall, _⟩ => ?_⟩
    exact absurd (ofText_eq_ok_iff.mp h) (hall refusal)
  · have hall : ∀ refusal : Refusal, text ≠ refusal.text := by
      intro refusal htext
      rw [ofText_eq_ok_iff.mpr htext] at h
      cases h
    rw [h]
    refine ⟨fun h => ⟨hall, (Except.error.inj h).symm⟩, fun ⟨_, he⟩ => by rw [he]⟩

theorem reason_eq_error_iff {line : Line} {e : Error} :
    (line.value "reason" >>= Refusal.ofText) = .error e ↔
      Field.reason.Rejects (line.value? "reason") e := by
  simp only [bind_eq_error_iff, value_eq_error_iff, value_eq_ok_iff, ofText_eq_error_iff]
  refine ⟨fun h => ?_, fun h => ?_⟩
  · rcases h with ⟨hnone, rfl⟩ | ⟨raw, hraw, hall, rfl⟩
    · rw [hnone]
      exact .missing .reason
    · rw [hraw]
      exact .unknown hall
  · generalize line.value? "reason" = value at h ⊢
    cases h with
    | missing => exact .inl ⟨rfl, rfl⟩
    | malformed hbase => cases hbase
    | unknown hall => exact .inr ⟨_, rfl, hall, rfl⟩

end Line

/-! ## Messages -/

namespace Message

/-- The words that messages start with. -/
def keywords : List String :=
  ["CONNECT", "DISCONNECT", "CONNECT_OK", "CONNECT_ERROR", "DISCONNECT_OK", "PLAYER_JOIN",
    "PLAYER_LEAVE"]

/-- The fields that a message must have, in the order they are read. -/
def fieldsOf : String → List Field
  | "CONNECT" => [.username]
  | "CONNECT_OK" => [.id, .token, .udpPort]
  | "CONNECT_ERROR" => [.reason]
  | "PLAYER_JOIN" => [.id, .username]
  | "PLAYER_LEAVE" => [.id]
  | _ => []

/-- The keys that a message asks for; one of them need not be there. -/
def keysOf (keyword : String) : List String :=
  (fieldsOf keyword).map Field.key ++ if keyword = "CONNECT" then ["version"] else []

/-- The words hold a number for a key. -/
def HoldsNumber (words : List (List Char)) (key : String) (base n : Nat) : Prop :=
  ∃ raw, Holds words key (some raw) ∧ IsNumeral base raw.toList n

/-- The words say what a message says, number by number and text by text. -/
def Says (words : List (List Char)) : Message → Prop
  | connect username version => Holds words "username" (some username) ∧
      (Holds words "version" (some version) ∨
        Holds words "version" none ∧ version = defaultVersion)
  | connectOk playerId token udpPort => HoldsNumber words "id" 10 playerId.toNat ∧
      HoldsNumber words "token" 16 token.toNat ∧ HoldsNumber words "udp_port" 10 udpPort.toNat
  | connectError reason => Holds words "reason" (some reason.text)
  | playerJoin playerId username =>
    HoldsNumber words "id" 10 playerId.toNat ∧ Holds words "username" (some username)
  | playerLeave playerId => HoldsNumber words "id" 10 playerId.toNat
  | disconnect | disconnectOk => True

section Fields

variable {keyword : String} {words : List (List Char)}

/-- Reading a field and then others finds the first bad one of them all. -/
theorem firstBad_of_bind {α β : Type} {x : Except Error α} {f : α → Except Error β}
    {field : Field} {fields : List Field} {e : Error}
    (hx : ∀ e, x = .error e ↔ field.Rejects ((Line.ofWords keyword words).value? field.key) e)
    (hf : ∀ a, f a = .error e ↔ FirstBad words fields e) :
    x >>= f = .error e ↔ FirstBad words (field :: fields) e := by
  have hholds := (@Line.holds_iff keyword field.key words _).mpr rfl
  -- a reader stops at its own fault or hands on to the next one, as the fields do
  rw [bind_eq_error_iff]
  refine ⟨fun h => ?_, fun h => ?_⟩
  · rcases h with h | ⟨a, ha, h⟩
    · exact .here hholds ((hx e).mp h)
    · refine .later hholds (fun e' he' => ?_) ((hf a).mp h)
      rw [(hx e').mpr he'] at ha
      cases ha
  · cases h with
    | here hvalue hbad =>
      -- the value is determined by the words, so a fault of the value is one of the reader
      rw [← Line.holds_iff.mp hvalue] at hbad
      exact .inl ((hx e).mpr hbad)
    | later hvalue hgood h =>
      rw [← Line.holds_iff.mp hvalue] at hgood
      cases hx' : x with
      | error e' => exact absurd ((hx e').mp hx') (hgood e')
      | ok a => exact .inr ⟨a, rfl, (hf a).mpr h⟩

/-- **The first bad field is what a line is refused for.** -/
theorem ofFields_eq_error_iff (hkeyword : keyword ∈ keywords) {e : Error} :
    ofFields (Line.ofWords keyword words) = .error e ↔ FirstBad words (fieldsOf keyword) e := by
  have hnil : ∀ m : Message, (pure m : Except Error Message) = .error e ↔ FirstBad words [] e :=
    fun m => ⟨nofun, nofun⟩
  simp only [keywords, List.mem_cons, List.not_mem_nil, or_false] at hkeyword
  rcases hkeyword with rfl | rfl | rfl | rfl | rfl | rfl | rfl
  · exact firstBad_of_bind (fun _ => Line.username_eq_error_iff) fun username => hnil _
  · exact hnil _
  · exact firstBad_of_bind (fun _ => Line.playerId_eq_error_iff) fun playerId =>
      firstBad_of_bind (fun _ => Line.token_eq_error_iff) fun token =>
      firstBad_of_bind (fun _ => Line.udpPort_eq_error_iff) fun udpPort => hnil _
  · -- the reason is looked up and read in two steps, which are one field
    have hreason := firstBad_of_bind
      (fun _ => @Line.reason_eq_error_iff (Line.ofWords "CONNECT_ERROR" words) _)
      fun reason => hnil (connectError reason)
    rwa [bind_assoc] at hreason
  · exact hnil _
  · exact firstBad_of_bind (fun _ => Line.playerId_eq_error_iff) fun playerId =>
      firstBad_of_bind (fun _ => Line.username_eq_error_iff) fun username => hnil _
  · exact firstBad_of_bind (fun _ => Line.playerId_eq_error_iff) fun playerId => hnil _

theorem holdsNumber_iff {key : String} {base n : Nat} :
    HoldsNumber words key base n ↔
      ∃ raw, (Line.ofWords keyword words).value? key = some raw ∧ IsNumeral base raw.toList n :=
  exists_congr fun _ => and_congr_left fun _ => Line.holds_iff

theorem says_of_ofFields {m : Message} (h : ofFields (Line.ofWords keyword words) = .ok m) :
    m.line.keyword = keyword ∧ Says words m := by
  have hvalue : ∀ {key v}, (Line.ofWords keyword words).value key = .ok v →
      Holds words key (some v) :=
    fun h => Line.holds_iff.mpr (Line.value_eq_ok_iff.mp h)
  have hid : ∀ {id}, (Line.ofWords keyword words).playerId = .ok id →
      HoldsNumber words "id" 10 id.toNat :=
    fun h => holdsNumber_iff.mpr (Line.playerId_eq_ok_iff.mp h)
  -- along the cases of the keyword; each reader has found what it returns among the words
  unfold ofFields at h
  split at h
  case h_1 hkeyword =>
    obtain ⟨username, husername, h⟩ := bind_eq_ok_iff.mp h
    obtain rfl := Except.ok.inj h
    refine ⟨hkeyword.symm, hvalue husername, ?_⟩
    cases hversion : (Line.ofWords keyword words).value? "version" with
    | none => exact .inr ⟨Line.holds_iff.mpr hversion, rfl⟩
    | some version => exact .inl (Line.holds_iff.mpr hversion)
  case h_2 hkeyword =>
    obtain rfl := Except.ok.inj h
    exact ⟨hkeyword.symm, trivial⟩
  case h_3 hkeyword =>
    obtain ⟨playerId, hplayerId, h⟩ := bind_eq_ok_iff.mp h
    obtain ⟨token, htoken, h⟩ := bind_eq_ok_iff.mp h
    obtain ⟨udpPort, hudpPort, h⟩ := bind_eq_ok_iff.mp h
    obtain rfl := Except.ok.inj h
    exact ⟨hkeyword.symm, hid hplayerId,
      holdsNumber_iff.mpr (Line.token_eq_ok_iff.mp htoken),
      holdsNumber_iff.mpr (Line.udpPort_eq_ok_iff.mp hudpPort)⟩
  case h_4 hkeyword =>
    obtain ⟨text, htext, h⟩ := bind_eq_ok_iff.mp h
    obtain ⟨reason, hreason, h⟩ := bind_eq_ok_iff.mp h
    obtain rfl := Except.ok.inj h
    obtain rfl := Line.ofText_eq_ok_iff.mp hreason
    exact ⟨hkeyword.symm, hvalue htext⟩
  case h_5 hkeyword =>
    obtain rfl := Except.ok.inj h
    exact ⟨hkeyword.symm, trivial⟩
  case h_6 hkeyword =>
    obtain ⟨playerId, hplayerId, h⟩ := bind_eq_ok_iff.mp h
    obtain ⟨username, husername, h⟩ := bind_eq_ok_iff.mp h
    obtain rfl := Except.ok.inj h
    exact ⟨hkeyword.symm, hid hplayerId, hvalue husername⟩
  case h_7 hkeyword =>
    obtain ⟨playerId, hplayerId, h⟩ := bind_eq_ok_iff.mp h
    obtain rfl := Except.ok.inj h
    exact ⟨hkeyword.symm, hid hplayerId⟩
  case h_8 => cases h

theorem ofFields_eq_ok {m : Message} (hkeyword : m.line.keyword = keyword)
    (h : Says words m) : ofFields (Line.ofWords keyword words) = .ok m := by
  have hvalue : ∀ {key v}, Holds words key (some v) →
      (Line.ofWords keyword words).value key = .ok v :=
    fun h => Line.value_eq_ok_iff.mpr (Line.holds_iff.mp h)
  have hid : ∀ {id : UInt8}, HoldsNumber words "id" 10 id.toNat →
      (Line.ofWords keyword words).playerId = .ok id :=
    fun h => Line.playerId_eq_ok_iff.mpr (holdsNumber_iff.mp h)
  have hline : (Line.ofWords keyword words).keyword = m.line.keyword := hkeyword.symm
  unfold ofFields
  -- the other way round, along the message: whatever the words hold, its reader finds
  rw [hline]
  cases m with
  | connect username version =>
    obtain ⟨husername, hversion⟩ := h
    refine bind_eq_ok_iff.mpr ⟨username, hvalue husername, ?_⟩
    rcases hversion with hversion | ⟨hversion, rfl⟩
    · rw [Line.holds_iff.mp hversion]
      rfl
    · rw [Line.holds_iff.mp hversion]
      rfl
  | disconnect | disconnectOk => rfl
  | connectOk playerId token udpPort =>
    obtain ⟨hplayerId, htoken, hudpPort⟩ := h
    exact bind_eq_ok_iff.mpr ⟨playerId, hid hplayerId, bind_eq_ok_iff.mpr ⟨token,
      Line.token_eq_ok_iff.mpr (holdsNumber_iff.mp htoken), bind_eq_ok_iff.mpr ⟨udpPort,
      Line.udpPort_eq_ok_iff.mpr (holdsNumber_iff.mp hudpPort), rfl⟩⟩⟩
  | connectError reason =>
    exact bind_eq_ok_iff.mpr ⟨reason.text, hvalue h,
      bind_eq_ok_iff.mpr ⟨reason, Refusal.ofText_text reason, rfl⟩⟩
  | playerJoin playerId username =>
    obtain ⟨hplayerId, husername⟩ := h
    exact bind_eq_ok_iff.mpr ⟨playerId, hid hplayerId,
      bind_eq_ok_iff.mpr ⟨username, hvalue husername, rfl⟩⟩
  | playerLeave playerId => exact bind_eq_ok_iff.mpr ⟨playerId, hid h, rfl⟩

end Fields

/-! ### Lines -/

theorem ofLine_of_spaced {text keyword : String} {words : List (List Char)}
    (h : Spaced (keyword.toList :: words) text.toList) :
    ofLine text = ofFields (Line.ofWords keyword words) := by
  rw [ofLine, Line.ofText?, h.words_eq]
  simp only [String.ofList_toList, Line.ofWords]

theorem ofFields_of_not_mem {keyword : String} {words : List (List Char)}
    (h : keyword ∉ keywords) :
    ofFields (Line.ofWords keyword words) = .error (.unknownType keyword) := by
  simp only [keywords, List.mem_cons, List.not_mem_nil, or_false, not_or] at h
  unfold ofFields Line.ofWords
  split <;> simp_all

theorem ofFields_ne_empty {keyword : String} {words : List (List Char)} :
    ofFields (Line.ofWords keyword words) ≠ .error .empty := by
  intro h
  by_cases hmem : keyword ∈ keywords
  · exact absurd rfl ((ofFields_eq_error_iff hmem).mp h).is_field_error.1
  · rw [ofFields_of_not_mem hmem] at h
    cases h

theorem ofFields_eq_unknownType_iff {keyword : String} {words : List (List Char)} {k : String} :
    ofFields (Line.ofWords keyword words) = .error (.unknownType k) ↔
      k = keyword ∧ keyword ∉ keywords := by
  by_cases hmem : keyword ∈ keywords
  · refine ⟨fun h => ?_, fun h => absurd hmem h.2⟩
    exact absurd rfl (((ofFields_eq_error_iff hmem).mp h).is_field_error.2 k)
  · rw [ofFields_of_not_mem hmem]
    simp [hmem, eq_comm]

theorem Says.mono {words words' : List (List Char)} {m : Message}
    (hholds : ∀ key ∈ keysOf m.line.keyword, ∀ value, Holds words key value → Holds words' key value)
    (h : Says words m) : Says words' m := by
  have hnumber : ∀ {key base n}, key ∈ keysOf m.line.keyword → HoldsNumber words key base n →
      HoldsNumber words' key base n :=
    fun hkey ⟨raw, hraw, hn⟩ => ⟨raw, hholds _ hkey _ hraw, hn⟩
  -- only the keys that the keyword has are asked for, and the two lists agree on these
  cases m with
  | connect username version =>
    obtain ⟨husername, hversion⟩ := h
    dsimp only [line] at hholds
    refine ⟨hholds _ (by decide) _ husername, ?_⟩
    rcases hversion with hversion | ⟨hversion, hdefault⟩
    · exact .inl (hholds _ (by decide) _ hversion)
    · exact .inr ⟨hholds _ (by decide) _ hversion, hdefault⟩
  | disconnect | disconnectOk => trivial
  | connectOk playerId token udpPort =>
    obtain ⟨hplayerId, htoken, hudpPort⟩ := h
    dsimp only [line] at hnumber
    exact ⟨hnumber (by decide) hplayerId, hnumber (by decide) htoken, hnumber (by decide) hudpPort⟩
  | connectError reason =>
    dsimp only [line, Says] at hholds h ⊢
    exact hholds _ (by decide) _ h
  | playerJoin playerId username =>
    obtain ⟨hplayerId, husername⟩ := h
    dsimp only [line] at hholds hnumber
    exact ⟨hnumber (by decide) hplayerId, hholds _ (by decide) _ husername⟩
  | playerLeave playerId =>
    dsimp only [line, Says] at hnumber h ⊢
    exact hnumber (by decide) h

/-- **Two lines that start with the same keyword and hold the same for the keys it asks for are
answered alike.** -/
theorem ofFields_congr {keyword : String} {words words' : List (List Char)}
    (hholds : ∀ key ∈ keysOf keyword, ∀ value, Holds words key value ↔ Holds words' key value) :
    ofFields (Line.ofWords keyword words) = ofFields (Line.ofWords keyword words') := by
  by_cases hmem : keyword ∈ keywords
  · cases hresult : ofFields (Line.ofWords keyword words) with
    | error e =>
      have hbad := (ofFields_eq_error_iff hmem).mp hresult
      have hbad' : FirstBad words' (fieldsOf keyword) e := hbad.mono fun field hfield value =>
        (hholds field.key (List.mem_append_left _ (List.mem_map_of_mem hfield)) value).mp
      exact ((ofFields_eq_error_iff hmem).mpr hbad').symm
    | ok m =>
      obtain ⟨hkeyword, hsays⟩ := says_of_ofFields hresult
      have hsays' : Says words' m := hsays.mono fun key hkey value =>
        (hholds key (hkeyword ▸ hkey) value).mp
      exact (ofFields_eq_ok hkeyword hsays').symm
  · rw [ofFields_of_not_mem hmem, ofFields_of_not_mem hmem]

/-- **Every line is answered by the grammar.** A line of blanks is empty, and any other has a first
word and words behind it. An unknown first word is named; behind a keyword the first bad field, in
the order they are read, is what is answered, and if there is none the message is what the words
say. Nothing else on the line counts: lines with the same first word that hold the same for the keys
it asks for are answered alike, and so are lines whose words are edits of each other, whatever the
gaps between them. -/
theorem ofLine_grammar :
    (∀ text : String, ofLine text = .error .empty ↔ IsBlankText text.toList) ∧
    (∀ text : String, IsBlankText text.toList ∨
      ∃ keyword words, Spaced (String.toList keyword :: words) text.toList) ∧
    (∀ words key, ∃! value, Holds words key value) ∧
    ∀ (text keyword : String) (words : List (List Char)),
      Spaced (keyword.toList :: words) text.toList →
      (∀ k, ofLine text = .error (.unknownType k) ↔ k = keyword ∧ keyword ∉ keywords) ∧
      (keyword ∈ keywords →
        (∀ e, ofLine text = .error e ↔ FirstBad words (fieldsOf keyword) e) ∧
        ∀ m, ofLine text = .ok m ↔ m.line.keyword = keyword ∧ Says words m) ∧
      ∀ (text' : String) (words' : List (List Char)),
        Spaced (keyword.toList :: words') text'.toList →
        ((∀ key ∈ keysOf keyword, ∀ value, Holds words key value ↔ Holds words' key value) →
          ofLine text' = ofLine text) ∧
        (Relation.EqvGen (Edit (keysOf keyword)) words words' → ofLine text' = ofLine text) := by
  have hwords : ∀ text : String, IsBlankText text.toList ∨
      ∃ keyword words, Spaced (String.toList keyword :: words) text.toList := by
    intro text
    obtain ⟨ws, h⟩ := Text.exists_spaced text.toList
    -- a text with no words in it is blank, and the first word of any other is its keyword
    cases ws with
    | nil => exact .inl (Text.words_eq_nil_iff.mp h.words_eq)
    | cons word words =>
      refine .inr ⟨String.ofList word, words, ?_⟩
      rwa [String.toList_ofList]
  refine ⟨fun text => ⟨fun h => ?_, fun h => ?_⟩, hwords, fun words key => ?_,
    fun text keyword words h => ⟨fun k => ?_, fun hmem => ⟨fun e => ?_, fun m => ?_⟩,
      fun text' words' h' => ?_⟩⟩
  · rcases hwords text with hblank | ⟨keyword, words, hspaced⟩
    · exact hblank
    · rw [ofLine_of_spaced hspaced] at h
      exact absurd h ofFields_ne_empty
  · rw [ofLine, Line.ofText?, Text.words_eq_nil_iff.mpr h]
  · exact ⟨_, (@Line.holds_iff "" key words _).mpr rfl,
      fun value hvalue => (Line.holds_iff.mp hvalue).symm⟩
  · rw [ofLine_of_spaced h, ofFields_eq_unknownType_iff]
  · rw [ofLine_of_spaced h, ofFields_eq_error_iff hmem]
  · rw [ofLine_of_spaced h]
    exact ⟨says_of_ofFields, fun h => ofFields_eq_ok h.1 h.2⟩
  · rw [ofLine_of_spaced h, ofLine_of_spaced h']
    refine ⟨fun hholds => (ofFields_congr hholds).symm, fun hedits => ?_⟩
    exact (ofFields_congr fun key hkey value => Line.holds_of_edits hedits hkey value).symm

/-- A line with gaps of all kinds, a word that is no field, a key twice and an id that is too
large. -/
def untidyLine : String := "\tPLAYER_JOIN  id=9 note username=a=b id=+300\r"

def untidyWords : List (List Char) :=
  ["id=9".toList, "note".toList, "username=a=b".toList, "id=+300".toList]

/-- The line without the idle word, two of its fields having changed places. -/
def tidyLine : String := "PLAYER_JOIN username=a=b id=9 id=+300"

def tidyWords : List (List Char) :=
  ["username=a=b".toList, "id=9".toList, "id=+300".toList]

theorem edits_untidyLine :
    Relation.EqvGen (Edit (keysOf "PLAYER_JOIN")) untidyWords tidyWords := by
  -- the word in front is no field at all, so it may be put in or left out
  have hidle : ∀ key ∈ keysOf "PLAYER_JOIN", ∀ value, ¬ IsField "note".toList key value := by
    intro key _ value h
    rw [← Line.fieldOfWord_eq_some_iff] at h
    have hnone : Line.fieldOfWord "note".toList = none := by decide +kernel
    rw [hnone] at h
    cases h
  -- the two fields have different keys, so they may change places
  have hapart : ∀ key v w, IsField "id=9".toList key v →
      ¬ IsField "username=a=b".toList key w := by
    intro key v w hid husername
    have hid' : Line.fieldOfWord "id=9".toList = some ("id", "9") := by decide +kernel
    have husername' : Line.fieldOfWord "username=a=b".toList = some ("username", "a=b") := by
      decide +kernel
    rw [← Line.fieldOfWord_eq_some_iff, hid'] at hid
    rw [← Line.fieldOfWord_eq_some_iff, husername'] at husername
    obtain ⟨rfl, rfl⟩ := Prod.mk.inj (Option.some.inj hid)
    exact absurd (Prod.mk.inj (Option.some.inj husername)).1 (by decide)
  refine .trans _ ["id=9".toList, "username=a=b".toList, "id=+300".toList] _ (.symm _ _ ?_) ?_
  · exact .rel _ _ (@Edit.insert _ ["id=9".toList] ["username=a=b".toList, "id=+300".toList] _ hidle)
  · refine .rel _ _ (@Edit.reorder _ [] ["id=9".toList, "username=a=b".toList]
      ["username=a=b".toList, "id=9".toList] ["id=+300".toList] (.swap _ _ _) ?_)
    exact List.pairwise_pair.mpr hapart

theorem ofLine_grammar_of_untidyLine :
    Spaced ("PLAYER_JOIN".toList :: untidyWords) untidyLine.toList ∧
    Spaced ("PLAYER_JOIN".toList :: tidyWords) tidyLine.toList ∧
    "PLAYER_JOIN" ∈ keywords ∧
    Relation.EqvGen (Edit (keysOf "PLAYER_JOIN")) untidyWords tidyWords ∧
    FirstBad untidyWords (fieldsOf "PLAYER_JOIN") (.invalidField "id" "300") ∧
    ofLine tidyLine = ofLine untidyLine ∧ ofLine tidyLine = .error (.invalidField "id" "300") := by
  have huntidy : Spaced ("PLAYER_JOIN".toList :: untidyWords) untidyLine.toList :=
    Text.words_eq_iff.mp (by decide +kernel)
  have htidy : Spaced ("PLAYER_JOIN".toList :: tidyWords) tidyLine.toList :=
    Text.words_eq_iff.mp (by decide +kernel)
  have hread : ofLine untidyLine = .error (.invalidField "id" "300") := by decide +kernel
  obtain ⟨_, hfields, hsame⟩ := ofLine_grammar.2.2.2 untidyLine "PLAYER_JOIN" untidyWords huntidy
  have hequal := (hsame tidyLine tidyWords htidy).2 edits_untidyLine
  exact ⟨huntidy, htidy, by decide, edits_untidyLine, ((hfields (by decide)).1 _).mp hread, hequal,
    hequal.trans hread⟩

end Message
end Skirmish.Control

import Mathlib.Data.List.Basic
import Skirmish.Control.Message
import Skirmish.Proofs.Failing
/-!
# How messages are spelled

A message is written as a line of fields, and any line is taken apart into fields again. In between
there is nothing but blanks, so what decides whether a message reads back is whether its texts have
blanks (`Message.ofLine_toLine`). An empty text, an `=` or any other character does no harm, for a
field is cut at its first `=` and a key has none.

What is read never has a blank in its texts. So whatever line a message was read from, the line that
it is written as says the same: written lines are a normal form of all lines that are messages.
-/

namespace Skirmish.Control

/-- A text without blanks. -/
def IsBlankFree (text : String) : Prop := ∀ c ∈ text.toList, Text.isBlank c = false

instance (text : String) : Decidable (IsBlankFree text) :=
  List.decidableBAll (fun c => Text.isBlank c = false) text.toList

theorem isBlankFree_of_isValidUsername {name : String} (h : isValidUsername name = true) :
    IsBlankFree name := by
  intro c hc
  have hnone := (Bool.and_eq_true_iff.mp h).2
  rw [Bool.not_eq_true', List.any_eq_false] at hnone
  have hc := hnone c hc
  simp only [Bool.or_eq_true, not_or, Bool.not_eq_true] at hc
  exact hc.1.1

/-- A number in decimal form. -/
theorem toList_toString (n : Nat) : (toString n).toList = Text.writeNumeral 10 n :=
  String.toList_ofList

theorem isBlankFree_toString (n : Nat) : IsBlankFree (toString n) := by
  intro c hc
  rw [toList_toString] at hc
  exact Text.not_isBlank_of_mem_writeNumeral (by decide) (by decide) c hc

theorem isBlankFree_hexadecimal (n : Nat) :
    IsBlankFree (String.ofList (Text.writeNumeral 16 n)) := by
  intro c hc
  rw [String.toList_ofList] at hc
  exact Text.not_isBlank_of_mem_writeNumeral (by decide) (by decide) c hc

/-! ## Lines -/

namespace Line

/-- A field as it is written. -/
def fieldText (field : String × String) : String := " " ++ field.1 ++ "=" ++ field.2

/-- A line as it is written. -/
def text (line : Line) : String := line.keyword ++ String.join (line.fields.map fieldText)

/-- A line whose parts can be told apart. -/
structure IsClear (line : Line) : Prop where
  keyword : line.keyword.toList ≠ [] ∧ IsBlankFree line.keyword
  key : ∀ field ∈ line.fields, IsBlankFree field.1 ∧ '=' ∉ field.1.toList
  value : ∀ field ∈ line.fields, IsBlankFree field.2

/-- The word that a field is. -/
def fieldWord (field : String × String) : List Char := field.1.toList ++ '=' :: field.2.toList

theorem toList_text (line : Line) : line.text.toList =
    line.keyword.toList ++ line.fields.flatMap fun field => ' ' :: fieldWord field := by
  have hfield : ∀ field, (fieldText field).toList = ' ' :: fieldWord field := by
    intro field
    simp [fieldText, fieldWord]
  rw [text, String.toList_append, String.toList_join, List.flatMap_map]
  simp only [hfield]

theorem words_fields {fields : List (String × String)}
    (h : ∀ field ∈ fields, IsBlankFree field.1 ∧ IsBlankFree field.2) {front : List Char}
    (hne : front ≠ []) (hfront : ∀ c ∈ front, Text.isBlank c = false) :
    Text.words (front ++ fields.flatMap fun field => ' ' :: fieldWord field) =
      front :: fields.map fieldWord := by
  -- on the fields, with any first word, since each field ends the word before it
  induction fields generalizing front with
  | nil =>
    rw [List.flatMap_nil, List.append_nil, Text.words_of_not_isBlank hne hfront]
    rfl
  | cons field rest ih =>
    have hfield : ∀ c ∈ fieldWord field, Text.isBlank c = false := by
      obtain ⟨hkey, hvalue⟩ := h field List.mem_cons_self
      intro c hc
      rcases List.mem_append.mp hc with hc | hc
      · exact hkey c hc
      · rcases List.mem_cons.mp hc with rfl | hc
        · rfl
        · exact hvalue c hc
    rw [List.flatMap_cons, List.cons_append, Text.words_append rfl,
      Text.words_of_not_isBlank hne hfront,
      ih (fun field hf => h field (List.mem_cons_of_mem _ hf)) (by simp [fieldWord]) hfield]
    rfl

theorem fieldOfWord_fieldWord {field : String × String} (h : '=' ∉ field.1.toList) :
    fieldOfWord (fieldWord field) = some field := by
  rw [fieldOfWord, fieldWord, Text.splitFirst_append h, Option.map_some]
  simp only [String.ofList_toList]

/-- **A clear line is taken apart into what it was put together from.** -/
theorem ofText?_text {line : Line} (h : line.IsClear) : ofText? line.text = some line := by
  have hwords := words_fields (fun field hf => ⟨(h.key field hf).1, h.value field hf⟩) h.keyword.1
    h.keyword.2
  have hfields : (line.fields.map fieldWord).filterMap fieldOfWord = line.fields := by
    have hsome : ∀ field ∈ line.fields, (fieldOfWord ∘ fieldWord) field = some field :=
      fun field hf => fieldOfWord_fieldWord (h.key field hf).2
    rw [List.filterMap_map, List.filterMap_congr hsome, List.filterMap_some]
  rw [ofText?, toList_text, hwords]
  simp only [hfields, String.ofList_toList]

/-- The values on a line have no blanks, whatever the line was. -/
theorem isBlankFree_of_value? {text key value : String} {line : Line}
    (hline : ofText? text = some line) (h : line.value? key = some value) : IsBlankFree value := by
  unfold ofText? at hline
  split at hline
  · cases hline
  · rename_i keyword rest hwords
    obtain rfl := Option.some.inj hline
    obtain ⟨field, hfind, rfl⟩ := Option.map_eq_some_iff.mp h
    have hmem := List.mem_reverse.mp (List.mem_of_find?_eq_some hfind)
    obtain ⟨word, hword, hfield⟩ := List.mem_filterMap.mp hmem
    obtain ⟨⟨before, after⟩, hsplit, rfl⟩ := Option.map_eq_some_iff.mp hfield
    intro c hc
    rw [String.toList_ofList] at hc
    refine Text.not_isBlank_of_mem_words (hwords ▸ List.mem_cons_of_mem _ hword) c ?_
    rw [(Text.splitFirst_eq_some hsplit).1]
    exact List.mem_append_right _ (List.mem_cons_of_mem _ hc)

theorem number_of_value? {line : Line} {key raw : String} {base n : Nat}
    (h : line.value? key = some raw)
    (hread : Text.readBelow UInt32.size base raw.toList = some n) :
    line.number key base = .ok n := by
  simp only [number, value, h, hread, bind, Except.bind, pure, Except.pure]

theorem decimal_of_value? {line : Line} {key : String} {n : Nat} (hn : n < UInt32.size)
    (h : line.value? key = some (toString n)) : line.number key 10 = .ok n := by
  refine number_of_value? h ?_
  rw [toList_toString]
  exact Text.readBelow_writeNumeral (by decide) (by decide) hn

theorem playerId_of_value? {line : Line} {id : UInt8}
    (h : line.value? "id" = some (toString id.toNat)) : line.playerId = .ok id := by
  have hid := id.toNat_lt
  have hnumber := decimal_of_value? (Nat.lt_trans hid (by decide)) h
  simp only [playerId, hnumber, bind, Except.bind, if_pos hid, pure, Except.pure,
    UInt8.ofNat_toNat]

theorem udpPort_of_value? {line : Line} {port : UInt16}
    (h : line.value? "udp_port" = some (toString port.toNat)) : line.udpPort = .ok port := by
  have hport := port.toNat_lt
  have hnumber := decimal_of_value? (Nat.lt_trans hport (by decide)) h
  simp only [udpPort, hnumber, bind, Except.bind, if_pos hport, pure, Except.pure,
    UInt16.ofNat_toNat]

theorem token_of_value? {line : Line} {token : UInt32}
    (h : line.value? "token" = some (String.ofList (Text.writeNumeral 16 token.toNat))) :
    line.token = .ok token := by
  have hnumber : line.number "token" 16 = .ok token.toNat := by
    refine number_of_value? h ?_
    rw [String.toList_ofList]
    exact Text.readBelow_writeNumeral (by decide) (by decide) token.toNat_lt
  simp only [Line.token, hnumber, bind, Except.bind, pure, Except.pure, UInt32.ofNat_toNat]

end Line

/-! ## Messages -/

namespace Message

/-- The texts that a message carries. -/
def texts : Message → List String
  | connect username version => [username, version]
  | playerJoin _ username => [username]
  | _ => []

/-- The line that a message is. -/
def line : Message → Line
  | connect username version => ⟨"CONNECT", [("username", username), ("version", version)]⟩
  | disconnect => ⟨"DISCONNECT", []⟩
  | connectOk playerId token udpPort =>
    ⟨"CONNECT_OK", [("id", toString playerId.toNat),
      ("token", String.ofList (Text.writeNumeral 16 token.toNat)),
      ("udp_port", toString udpPort.toNat)]⟩
  | connectError reason => ⟨"CONNECT_ERROR", [("reason", reason.text)]⟩
  | disconnectOk => ⟨"DISCONNECT_OK", []⟩
  | playerJoin playerId username =>
    ⟨"PLAYER_JOIN", [("id", toString playerId.toNat), ("username", username)]⟩
  | playerLeave playerId => ⟨"PLAYER_LEAVE", [("id", toString playerId.toNat)]⟩

theorem toLine_eq (m : Message) : m.toLine = m.line.text := by
  unfold toLine line Line.text
  cases m <;>
    simp only [Line.fieldText, List.map_cons, List.map_nil, String.join_cons, String.join_nil,
      String.append_empty, String.reduceAppend, ← String.append_assoc]

/-- The keywords and the keys are words without an `=`. -/
theorem isClear_names : ∀ name ∈ ["CONNECT", "DISCONNECT", "CONNECT_OK", "CONNECT_ERROR",
    "DISCONNECT_OK", "PLAYER_JOIN", "PLAYER_LEAVE", "username", "version", "id", "token",
    "udp_port", "reason"],
    name.toList ≠ [] ∧ IsBlankFree name ∧ '=' ∉ name.toList := by
  decide +kernel

theorem isBlankFree_text (reason : Refusal) : IsBlankFree reason.text := by
  cases reason <;> decide +kernel

/-- A message without blanks in its texts is a clear line. -/
theorem isClear_line {m : Message} (h : ∀ text ∈ m.texts, IsBlankFree text) : m.line.IsClear := by
  constructor
  case keyword =>
    have hkeyword := isClear_names m.line.keyword (by cases m <;> simp [line])
    exact ⟨hkeyword.1, hkeyword.2.1⟩
  case key =>
    -- the names are finitely many, and each of them is written without blanks and equals signs
    have hkey : ∀ field ∈ m.line.fields, field.1 ∈ ["username", "version", "id", "token",
        "udp_port", "reason"] := by
      cases m <;> simp [line]
    intro field hf
    exact (isClear_names field.1 (List.mem_append_right ["CONNECT", "DISCONNECT", "CONNECT_OK",
      "CONNECT_ERROR", "DISCONNECT_OK", "PLAYER_JOIN", "PLAYER_LEAVE"] (hkey field hf))).2
  case value =>
    cases m with
    | connect username version =>
      simp only [texts, List.forall_mem_cons] at h
      simp only [line, List.forall_mem_cons, h, true_and]
      simp
    | playerJoin playerId username =>
      simp only [texts, List.forall_mem_cons] at h
      simp only [line, List.forall_mem_cons, h, isBlankFree_toString, true_and]
      simp
    | connectOk | connectError | playerLeave =>
      simp only [line, List.forall_mem_cons, isBlankFree_toString, isBlankFree_hexadecimal,
        isBlankFree_text, true_and]
      simp
    | disconnect | disconnectOk => simp [line]

/-- The fields of a message say what it is. -/
theorem ofFields_line (m : Message) : ofFields m.line = .ok m := by
  -- the keys are fixed, so each field is found by computation, and only the numbers have to be read
  -- back
  cases m with
  | connect | disconnect | disconnectOk => rfl
  | connectError reason => cases reason <;> rfl
  | connectOk playerId token udpPort =>
    have hid : (connectOk playerId token udpPort).line.playerId = .ok playerId :=
      Line.playerId_of_value? rfl
    have htoken : (connectOk playerId token udpPort).line.token = .ok token :=
      Line.token_of_value? rfl
    have hport : (connectOk playerId token udpPort).line.udpPort = .ok udpPort :=
      Line.udpPort_of_value? rfl
    unfold ofFields
    simp only [line] at hid htoken hport ⊢
    rw [hid, htoken, hport]
    rfl
  | playerJoin playerId username =>
    have hid : (playerJoin playerId username).line.playerId = .ok playerId :=
      Line.playerId_of_value? rfl
    unfold ofFields
    simp only [line] at hid ⊢
    rw [hid]
    rfl
  | playerLeave playerId =>
    have hid : (playerLeave playerId).line.playerId = .ok playerId := Line.playerId_of_value? rfl
    unfold ofFields
    simp only [line] at hid ⊢
    rw [hid]
    rfl

theorem ofLine_toLine_of_isBlankFree {m : Message} (h : ∀ text ∈ m.texts, IsBlankFree text) :
    ofLine m.toLine = .ok m := by
  rw [toLine_eq, ofLine, Line.ofText?_text (isClear_line h)]
  exact ofFields_line m

/-- The texts of a message are values on the line that it was read from, or the default. -/
theorem value?_of_mem_texts {line : Line} {m : Message} {text : String} (h : ofFields line = .ok m)
    (ht : text ∈ m.texts) : (∃ key, line.value? key = some text) ∨ text = defaultVersion := by
  have hvalue : ∀ {key v}, line.value key = .ok v → line.value? key = some v := by
    intro key v hv
    unfold Line.value at hv
    split at hv
    · rename_i w hw
      rw [hw, Except.ok.inj hv]
    · cases hv
  -- no reader makes a text up, so a text is the value of its field, or the version that was left
  -- out
  unfold ofFields at h
  split at h
  · obtain ⟨username, husername, h⟩ := bind_eq_ok_iff.mp h
    obtain rfl := Except.ok.inj h
    rcases List.mem_cons.mp ht with rfl | ht
    · exact .inl ⟨_, hvalue husername⟩
    · rw [List.mem_singleton.mp ht]
      cases hversion : line.value? "version" with
      | none => exact .inr rfl
      | some version => exact .inl ⟨_, hversion⟩
  · obtain rfl := Except.ok.inj h
    cases ht
  · obtain ⟨playerId, -, h⟩ := bind_eq_ok_iff.mp h
    obtain ⟨token, -, h⟩ := bind_eq_ok_iff.mp h
    obtain ⟨udpPort, -, h⟩ := bind_eq_ok_iff.mp h
    obtain rfl := Except.ok.inj h
    cases ht
  · obtain ⟨text, -, h⟩ := bind_eq_ok_iff.mp h
    obtain ⟨reason, -, h⟩ := bind_eq_ok_iff.mp h
    obtain rfl := Except.ok.inj h
    cases ht
  · obtain rfl := Except.ok.inj h
    cases ht
  · obtain ⟨playerId, -, h⟩ := bind_eq_ok_iff.mp h
    obtain ⟨username, husername, h⟩ := bind_eq_ok_iff.mp h
    obtain rfl := Except.ok.inj h
    rw [List.mem_singleton.mp ht]
    exact .inl ⟨_, hvalue husername⟩
  · obtain ⟨playerId, -, h⟩ := bind_eq_ok_iff.mp h
    obtain rfl := Except.ok.inj h
    cases ht
  · cases h

/-- What is read has no blanks in its texts. -/
theorem isBlankFree_of_ofLine {text : String} {m : Message} (h : ofLine text = .ok m) :
    ∀ text ∈ m.texts, IsBlankFree text := by
  unfold ofLine at h
  split at h
  · rename_i line hline
    intro t ht
    rcases value?_of_mem_texts h ht with ⟨key, hkey⟩ | rfl
    · exact Line.isBlankFree_of_value? hline hkey
    · decide +kernel
  · cases h

/-- **A message reads back unless its texts have blanks.** So does every message with a valid name,
and every message that was read from a line, however that line was spelled. -/
theorem ofLine_toLine :
    (∀ m : Message, ofLine m.toLine = .ok m ↔ ∀ text ∈ m.texts, IsBlankFree text) ∧
      (∀ username, isValidUsername username = true →
        (∀ version, IsBlankFree version →
          ofLine (connect username version).toLine = .ok (connect username version)) ∧
        ∀ id, ofLine (playerJoin id username).toLine = .ok (playerJoin id username)) ∧
      ∀ text m, ofLine text = .ok m → ofLine m.toLine = .ok m := by
  refine ⟨fun m => ⟨isBlankFree_of_ofLine, ofLine_toLine_of_isBlankFree⟩, ?valid, ?normal⟩
  case valid =>
    intro username h
    have hname := isBlankFree_of_isValidUsername h
    refine ⟨fun version hversion => ofLine_toLine_of_isBlankFree ?_,
      fun id => ofLine_toLine_of_isBlankFree ?_⟩
    · simp [texts, hname, hversion]
    · simp [texts, hname]
  case normal =>
    intro text m h
    exact ofLine_toLine_of_isBlankFree (isBlankFree_of_ofLine h)

/-- A line with fields in any order, one of them repeated, and words that are none. -/
def unorderedLine : String := "\tCONNECT version=1 twice  username=jos\u00e9 version==2\r"

theorem ofLine_toLine_of_unorderedLine : isValidUsername "jos\u00e9" = true ∧ IsBlankFree "=2" ∧
    ofLine unorderedLine = .ok (connect "jos\u00e9" "=2") ∧
    ofLine (connect "jos\u00e9" "=2").toLine = .ok (connect "jos\u00e9" "=2") ∧
    ofLine (playerJoin 7 "jos\u00e9").toLine = .ok (playerJoin 7 "jos\u00e9") := by
  have hname : isValidUsername "jos\u00e9" = true := by decide +kernel
  have hversion : IsBlankFree "=2" := by decide +kernel
  have hread : ofLine unorderedLine = .ok (connect "jos\u00e9" "=2") := by decide +kernel
  exact ⟨hname, hversion, hread, ofLine_toLine.2.2 unorderedLine _ hread,
    (ofLine_toLine.2.1 _ hname).2 7⟩

/-- A name with a blank could speak for somebody else. -/
example : ofLine (playerJoin 1 "ada id=2").toLine = .ok (playerJoin 2 "ada") := by decide +kernel

end Message

end Skirmish.Control

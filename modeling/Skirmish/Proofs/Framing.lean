import Skirmish.Control.Stream
import Skirmish.Proofs.Spelling
import Skirmish.Proofs.Utf8
/-!
# Streams deliver what their lines say

Messages travel as lines in a stream of bytes, and the stream arrives in chunks. What is delivered
depends neither on the chunks nor on how the lines end: it is what the pieces between the line feeds
say, one after the other (`receiveChunks_eq`). A piece that is no message does no harm to its
neighbours, and a piece that is not UTF-8 is the end.
-/

namespace Skirmish.Control

/-! ## Ends of lines -/

theorem dropReturn_cases (line : List UInt8) :
    dropReturn line = line ∨ line = dropReturn line ++ [carriageReturn] := by
  unfold dropReturn
  split
  · rename_i h
    exact .inr (List.dropLast_append_getLast? _ h).symm
  · exact .inl rfl

theorem ofLine_concat_return (text : List Char) :
    Message.ofLine (String.ofList (text ++ ['\r'])) = Message.ofLine (String.ofList text) := by
  have hwords : Text.words (text ++ ['\r']) = Text.words text := by
    rw [Text.words_append rfl]
    exact List.append_nil _
  unfold Message.ofLine Line.ofText?
  rw [String.toList_ofList, String.toList_ofList, hwords]

/-- A carriage return at the end makes a text no other text. -/
theorem decode?_concat_return (line : List UInt8) :
    Utf8.decode? (line ++ [carriageReturn]) = (Utf8.decode? line).map (· ++ ['\r']) := by
  have hreturn : Utf8.encode ['\r'] = [carriageReturn] := by decide
  apply Option.ext
  intro text
  rw [Utf8.decode?_eq_some_iff, Option.map_eq_some_iff]
  constructor
  · intro h
    rcases List.eq_nil_or_concat' text with rfl | ⟨front, c, rfl⟩
    · simp [Utf8.encode] at h
    · have hne : Utf8.encode [c] ≠ [] := by
        rw [Utf8.encode_cons]
        simp
      rw [Utf8.encode_append] at h
      -- the last byte belongs to the last character, which is the carriage return
      have hlast : carriageReturn ∈ Utf8.encode [c] := by
        have hlast := congrArg List.getLast? h
        rw [List.getLast?_append_of_ne_nil _ hne, List.getLast?_concat] at hlast
        exact List.mem_of_getLast? hlast
      have hc : c = '\r' :=
        (List.mem_singleton.mp (Utf8.ofNat_mem_of_mem_encode hlast (by decide))).symm
      subst hc
      rw [hreturn] at h
      exact ⟨front, Utf8.decode?_eq_some_iff.mpr (List.append_inj_left' h rfl), rfl⟩
  · intro hex
    obtain ⟨front, hfront, rfl⟩ := hex
    rw [Utf8.encode_append, Utf8.decode?_eq_some_iff.mp hfront, hreturn]

theorem ofBytes_concat_return (line : List UInt8) :
    Reading.ofBytes (line ++ [carriageReturn]) = Reading.ofBytes line := by
  unfold Reading.ofBytes
  rw [decode?_concat_return]
  cases Utf8.decode? line with
  | none => rfl
  | some text => simp only [Option.map_some, ofLine_concat_return]

theorem ofBytes_dropReturn (line : List UInt8) :
    Reading.ofBytes (dropReturn line) = Reading.ofBytes line := by
  rcases dropReturn_cases line with h | h
  · rw [h]
  · conv_rhs => rw [h, ofBytes_concat_return]

/-! ## What is delivered -/

/-- The message that a text says. -/
def message? (text : List Char) : Option Message := (Message.ofLine (String.ofList text)).toOption

theorem receive_congr (lines : List (List UInt8)) {rest rest' : List (List UInt8)}
    (h : receive rest = receive rest') : receive (lines ++ rest) = receive (lines ++ rest') := by
  induction lines with
  | nil => exact h
  | cons line lines ih =>
    rw [List.cons_append, List.cons_append, receive, receive, ih]

theorem receive_map_dropReturn (lines rest : List (List UInt8)) :
    receive (lines.map dropReturn ++ rest) = receive (lines ++ rest) := by
  induction lines with
  | nil => rfl
  | cons line lines ih =>
    rw [List.map_cons, List.cons_append, List.cons_append, receive, receive, ih,
      ofBytes_dropReturn]

theorem ofBytes_encode (text : List Char) : Reading.ofBytes (Utf8.encode text) =
    (message? text).elim .skipped .message := by
  rw [Reading.ofBytes, Utf8.decode?_eq_some_iff.mpr rfl, message?]
  dsimp only
  cases Message.ofLine (String.ofList text) with
  | ok m => rfl
  | error e => rfl

/-- Texts deliver the messages that they say, whatever follows. -/
theorem receive_texts (texts : List (List Char)) (rest : List (List UInt8)) :
    receive (texts.map Utf8.encode ++ rest) =
      (texts.filterMap message? ++ (receive rest).1, (receive rest).2) := by
  induction texts with
  | nil => rfl
  | cons text texts ih =>
    rw [List.map_cons, List.cons_append, receive, ih, ofBytes_encode, List.filterMap_cons]
    cases message? text with
    | none => rfl
    | some m => rfl

/-- What follows a line that is not UTF-8 is lost. -/
theorem receive_unreadable {line : List UInt8} (h : ∀ text, Utf8.encode text ≠ line)
    (rest : List (List UInt8)) : receive (line :: rest) = ([], .unreadableLine) := by
  have hread : Utf8.decode? line = none := by
    cases hd : Utf8.decode? line with
    | none => rfl
    | some text => exact absurd (Utf8.decode?_eq_some_iff.mp hd) (h text)
  rw [receive, Reading.ofBytes, hread]

/-! ## Chunks -/

/-- The pieces between the line feeds. -/
def pieces (stream : List UInt8) : List (List UInt8) := Text.splitOn (· == lineFeed) stream

theorem pieces_ne_nil (stream : List UInt8) : pieces stream ≠ [] := Text.splitOn_ne_nil _ _

theorem pieces_of_not_mem {line : List UInt8} (h : lineFeed ∉ line) : pieces line = [line] := by
  refine Text.splitOn_of_not_isCut fun b hb => ?_
  rw [beq_eq_false_iff_ne]
  rintro rfl
  exact h hb

/-- What stands behind the last line feed. -/
def tail (stream : List UInt8) : List UInt8 := (pieces stream).getLast?.getD []

theorem lineFeed_not_mem_tail (stream : List UInt8) : lineFeed ∉ tail stream := by
  intro hmem
  have htail : tail stream ∈ pieces stream := by
    rw [tail, List.getLast?_eq_some_getLast (pieces_ne_nil _)]
    exact List.getLast_mem _
  simpa using Text.not_isCut_of_mem_splitOn htail lineFeed hmem

/-- What follows belongs to the last piece and those after it. -/
theorem pieces_append (stream rest : List UInt8) :
    pieces (stream ++ rest) = (pieces stream).dropLast ++ pieces (tail stream ++ rest) :=
  Text.splitOn_append_right _ _ _

/-- Every line feed ends a piece. -/
theorem pieces_lines {lines : List (List UInt8)} (h : ∀ line ∈ lines, lineFeed ∉ line)
    (rest : List UInt8) :
    pieces (lines.flatMap (· ++ [lineFeed]) ++ rest) = lines ++ pieces rest := by
  induction lines with
  | nil => rfl
  | cons line lines ih =>
    have hline := pieces_of_not_mem (h line List.mem_cons_self)
    have hrest := ih fun line hl => h line (List.mem_cons_of_mem _ hl)
    rw [List.flatMap_cons, List.append_assoc, List.append_assoc, List.singleton_append, pieces,
      Text.splitOn_append (by simp), ← pieces, ← pieces, hline, hrest]
    rfl

theorem receive_lines {r : Receiver} (h : lineFeed ∉ r.pending) (chunks : List (List UInt8)) :
    receive (r.lines chunks) = receive (pieces (r.pending ++ chunks.flatten)) := by
  induction chunks generalizing r with
  | nil =>
    rw [List.flatten_nil, List.append_nil, pieces_of_not_mem h]
    show receive r.finish = _
    unfold Receiver.finish
    split
    · -- nothing is left over, which is as good as a blank line
      rename_i hnil
      rw [hnil]
      rfl
    · rfl
  | cons chunk rest ih =>
    rw [Receiver.lines, List.flatten_cons, ← List.append_assoc, pieces_append]
    show receive ((pieces (r.pending ++ chunk)).dropLast.map dropReturn ++ _) = _
    rw [receive_map_dropReturn]
    exact receive_congr _ (ih (lineFeed_not_mem_tail _))

/-- **What is delivered is what the pieces between the line feeds say**, in whatever chunks the
stream arrives. -/
theorem receiveChunks_eq (chunks : List (List UInt8)) :
    receiveChunks chunks = receive (pieces chunks.flatten) :=
  receive_lines (r := {}) List.not_mem_nil chunks

/-- It makes no difference whether the last line has an end. -/
theorem receive_pieces_append {cut : List UInt8} (h : cut <:+ [carriageReturn, lineFeed])
    (stream : List UInt8) : receive (pieces (stream ++ cut)) = receive (pieces stream) := by
  have hreturn : receive (pieces (stream ++ [carriageReturn])) = receive (pieces stream) := by
    have htail := lineFeed_not_mem_tail stream
    have hconcat : lineFeed ∉ tail stream ++ [carriageReturn] := by
      rw [List.mem_append, not_or]
      exact ⟨htail, by decide⟩
    conv_rhs => rw [← List.append_nil stream, pieces_append, List.append_nil]
    rw [pieces_append, pieces_of_not_mem htail, pieces_of_not_mem hconcat]
    refine receive_congr _ ?_
    simp only [receive, ofBytes_concat_return]
  -- a line feed at the end only adds an empty piece, which is skipped
  have hfeed : ∀ stream, receive (pieces (stream ++ [lineFeed])) = receive (pieces stream) := by
    intro stream
    rw [pieces, Text.splitOn_append (by simp), ← pieces]
    refine (receive_congr (pieces stream) ?_).trans (congrArg receive (List.append_nil _))
    rfl
  -- what is cut off is all of the last line end, its line feed or nothing
  rcases List.suffix_cons_iff.mp h with rfl | h
  · rw [← List.singleton_append, ← List.append_assoc, hfeed, hreturn]
  rcases List.suffix_cons_iff.mp h with rfl | h
  · exact hfeed stream
  · rw [List.suffix_nil.mp h, List.append_nil]

/-! ## Scripts -/

/-- How a line may end. -/
inductive LineEnd where
  | lineFeed
  | returnAndLineFeed
deriving DecidableEq, Repr

namespace LineEnd

/-- What stands in front of the line feed. -/
def front : LineEnd → List Char
  | lineFeed => []
  | returnAndLineFeed => ['\r']

def text (e : LineEnd) : List Char := e.front ++ ['\n']

end LineEnd

theorem message?_append_front (text : List Char) (e : LineEnd) :
    message? (text ++ e.front) = message? text := by
  cases e with
  | lineFeed => rw [LineEnd.front, List.append_nil]
  | returnAndLineFeed => rw [LineEnd.front, message?, ofLine_concat_return, message?]

/-- Texts that are one line each, with the ends of the lines, as bytes. -/
def written (lines : List (List Char × LineEnd)) : List UInt8 :=
  Utf8.encode (lines.flatMap fun line => line.1 ++ line.2.text)

theorem pieces_written {lines : List (List Char × LineEnd)} (h : ∀ line ∈ lines, '\n' ∉ line.1)
    (rest : List UInt8) : pieces (written lines ++ rest) =
      (lines.map fun line => line.1 ++ line.2.front).map Utf8.encode ++ pieces rest := by
  have hfeed : Utf8.encode ['\n'] = [lineFeed] := by decide
  -- a text of several lines is one piece for each of them, each with a line feed after it
  have hwritten : written lines =
      ((lines.map fun line => line.1 ++ line.2.front).map Utf8.encode).flatMap
        (· ++ [lineFeed]) := by
    clear h
    unfold written
    induction lines with
    | nil => rfl
    | cons line lines ih =>
      rw [List.flatMap_cons, Utf8.encode_append, ih, LineEnd.text, ← List.append_assoc,
        Utf8.encode_append, hfeed]
      rfl
  rw [hwritten, pieces_lines]
  intro bytes hbytes hmem
  obtain ⟨text, htext, rfl⟩ := List.mem_map.mp hbytes
  obtain ⟨line, hline, rfl⟩ := List.mem_map.mp htext
  -- the line feed is one byte, so it could only come from a line feed in the text
  have hmem := Utf8.ofNat_mem_of_mem_encode hmem (by decide)
  rcases List.mem_append.mp hmem with hmem | hmem
  · exact h line hline hmem
  · revert hmem
    cases line.2 <;> decide

/-- Lines of text deliver the messages that they say, whatever follows. -/
theorem receive_written {lines : List (List Char × LineEnd)} (h : ∀ line ∈ lines, '\n' ∉ line.1)
    (rest : List UInt8) : receive (pieces (written lines ++ rest)) =
      (lines.filterMap (fun line => message? line.1) ++ (receive (pieces rest)).1,
        (receive (pieces rest)).2) := by
  rw [pieces_written h, receive_texts, List.filterMap_map]
  simp only [Function.comp_def, message?_append_front]

/-- A line that somebody writes. -/
inductive Entry where
  | message (m : Message)
  /-- A blank line, or one that is no message. -/
  | noise (text : List Char)

namespace Entry

def text : Entry → List Char
  | message m => m.toLine.toList
  | noise text => text

def message? : Entry → Option Message
  | message m => some m
  | noise _ => none

/-- A message without blanks in its texts, or one line that is none. -/
def IsPlain : Entry → Prop
  | message m => ∀ text ∈ m.texts, IsBlankFree text
  | noise text => '\n' ∉ text ∧ ∀ m, Message.ofLine (String.ofList text) ≠ .ok m

end Entry

theorem lineFeed_not_mem_toLine {m : Message} (h : ∀ text ∈ m.texts, IsBlankFree text) :
    '\n' ∉ m.toLine.toList := by
  have hclear := Message.isClear_line h
  have hfree : ∀ {text}, IsBlankFree text → '\n' ∉ text.toList := by
    intro text hfree hmem
    have hblank := hfree _ hmem
    cases hblank
  rw [Message.toLine_eq, Line.toList_text, List.mem_append, not_or]
  refine ⟨hfree hclear.keyword.2, fun hmem => ?_⟩
  obtain ⟨field, hfield, hmem⟩ := List.mem_flatMap.mp hmem
  rcases List.mem_cons.mp hmem with hspace | hmem
  · cases hspace
  rcases List.mem_append.mp hmem with hkey | hmem
  · exact hfree (hclear.key field hfield).1 hkey
  rcases List.mem_cons.mp hmem with hmark | hvalue
  · cases hmark
  · exact hfree (hclear.value field hfield) hvalue

theorem Entry.IsPlain.lineFeed_not_mem {e : Entry} (h : e.IsPlain) : '\n' ∉ e.text := by
  cases e with
  | message m => exact lineFeed_not_mem_toLine h
  | noise text => exact h.1

/-- A plain line says what it is meant to say. -/
theorem Entry.IsPlain.message?_text {e : Entry} (h : e.IsPlain) :
    Control.message? e.text = e.message? := by
  cases e with
  | message m =>
    show (Message.ofLine (String.ofList m.toLine.toList)).toOption = _
    rw [String.ofList_toList, Message.ofLine_toLine_of_isBlankFree h]
    rfl
  | noise text =>
    show (Message.ofLine (String.ofList text)).toOption = none
    cases hread : Message.ofLine (String.ofList text) with
    | ok m => exact absurd hread (h.2 m)
    | error e => rfl

/-- Entries one after the other, as bytes. -/
def script (entries : List (Entry × LineEnd)) : List UInt8 :=
  written (entries.map fun e => (e.1.text, e.2))

/-- Messages as they are sent are entries of a script. -/
theorem script_sent (messages : List Message) :
    script (messages.map fun m => (.message m, .lineFeed)) = messages.flatMap Message.toBytes := by
  rw [script, written, List.map_map, List.flatMap_map]
  induction messages with
  | nil => rfl
  | cons m rest ih =>
    rw [List.flatMap_cons, List.flatMap_cons, Utf8.encode_append, ih]
    show Utf8.encode (m.toLine.toList ++ ['\n']) ++ _ = _
    rw [Utf8.encode_append]
    rfl

theorem receiveChunks_of_isPlain {entries : List (Entry × LineEnd)} {cut : List UInt8}
    {chunks : List (List UInt8)} (hplain : ∀ e ∈ entries, e.1.IsPlain)
    (hcut : cut <:+ [carriageReturn, lineFeed]) (hstream : chunks.flatten ++ cut = script entries) :
    receiveChunks chunks = (entries.filterMap fun e => e.1.message?, .endOfStream) := by
  have hlines : ∀ line ∈ entries.map fun e => (e.1.text, e.2), '\n' ∉ line.1 := by
    intro line hline
    obtain ⟨e, he, rfl⟩ := List.mem_map.mp hline
    exact (hplain e he).lineFeed_not_mem
  have hsaid : ∀ e ∈ entries, message? e.1.text = e.1.message? := fun e he =>
    (hplain e he).message?_text
  rw [receiveChunks_eq, ← receive_pieces_append hcut, hstream, script,
    ← List.append_nil (written _), receive_written hlines, List.filterMap_map,
    ← List.filterMap_congr hsaid]
  exact congrArg (·, Ending.endOfStream) (List.append_nil _)

/-- **A stream delivers the messages that were written into it**, in order, whatever stands between
them, however the lines end and wherever the chunks are cut. So what is sent arrives. If a line is
not UTF-8, the stream delivers the messages in front of that line and fails. -/
theorem receiveChunks_script :
    (∀ entries cut chunks, (∀ e ∈ entries, Entry.IsPlain e.1) →
      cut <:+ [carriageReturn, lineFeed] → chunks.flatten ++ cut = script entries →
        receiveChunks chunks = (entries.filterMap fun e => e.1.message?, .endOfStream)) ∧
      (∀ messages chunks, (∀ m ∈ messages, ∀ text ∈ m.texts, IsBlankFree text) →
        chunks.flatten = messages.flatMap Message.toBytes →
          receiveChunks chunks = (messages, .endOfStream)) ∧
      ∀ lines bad rest chunks, (∀ line ∈ lines, '\n' ∉ line.1) → lineFeed ∉ bad →
        (∀ text, Utf8.encode text ≠ bad) → (rest = [] ∨ ∃ after, rest = lineFeed :: after) →
          chunks.flatten = written lines ++ bad ++ rest →
            receiveChunks chunks = (lines.filterMap fun line => message? line.1, .unreadableLine) := by
  refine ⟨fun entries cut chunks => receiveChunks_of_isPlain, ?sent, ?unreadable⟩
  case sent =>
    intro messages chunks hfree hstream
    -- what a server sends are the entries of a script without blank lines, and plain
    have hplain : ∀ e ∈ messages.map fun m => (Entry.message m, LineEnd.lineFeed),
        e.1.IsPlain := by
      intro e he
      obtain ⟨m, hm, rfl⟩ := List.mem_map.mp he
      exact hfree m hm
    rw [receiveChunks_of_isPlain hplain List.nil_suffix
      (by rw [List.append_nil, hstream, script_sent]), List.filterMap_map]
    exact congrArg (·, Ending.endOfStream) List.filterMap_some
  case unreadable =>
    intro lines bad rest chunks hlines hbad hcode hrest hstream
    -- the line that cannot be read is one piece, whether or not anything follows it
    have hpieces : ∃ more, pieces (bad ++ rest) = bad :: more := by
      rcases hrest with rfl | ⟨after, rfl⟩
      · exact ⟨[], by rw [List.append_nil, pieces_of_not_mem hbad]⟩
      · refine ⟨pieces after, ?_⟩
        rw [pieces, Text.splitOn_append (by simp), ← pieces, pieces_of_not_mem hbad]
        rfl
    obtain ⟨more, hmore⟩ := hpieces
    rw [receiveChunks_eq, hstream, List.append_assoc, receive_written hlines, hmore,
      receive_unreadable hcode, List.append_nil]

/-- A player says hello and goodbye, with two lines in between that say nothing. -/
def mixedLines : List (Entry × LineEnd) := [
  (.message (.connect "jos\u00e9" "1"), .returnAndLineFeed),
  (.noise "HELLO there".toList, .lineFeed),
  (.noise [], .returnAndLineFeed),
  (.message .disconnect, .lineFeed)]

/-- The visit in two chunks, the first of which ends inside a character. The last line has no end. -/
def mixedChunks : List (List UInt8) :=
  [(script mixedLines).take 21, ((script mixedLines).drop 21).dropLast]

/-- A line of two bytes that are no character, and another line behind it. -/
def invalidLine : List UInt8 := [0xc3, 0x28]

theorem receiveChunks_script_of_mixedLines :
    (∀ e ∈ mixedLines, e.1.IsPlain) ∧ [lineFeed] <:+ [carriageReturn, lineFeed] ∧
    mixedChunks.flatten ++ [lineFeed] = script mixedLines ∧
    receiveChunks mixedChunks = ([.connect "jos\u00e9" "1", .disconnect], .endOfStream) ∧
    receiveChunks
        (mixedChunks ++ [lineFeed :: invalidLine ++ lineFeed :: Message.disconnect.toBytes]) =
      ([.connect "jos\u00e9" "1", .disconnect], .unreadableLine) := by
  -- a line that is no message is skipped whatever is in it, and the others have nothing blank in
  -- them
  have hplain : ∀ e ∈ mixedLines, e.1.IsPlain := by
    have hhello : ∀ m, Message.ofLine (String.ofList "HELLO there".toList) ≠ .ok m := by
      have herror : Message.ofLine (String.ofList "HELLO there".toList) =
        .error (.unknownType "HELLO") := by decide +kernel
      intro m hread
      rw [herror] at hread
      cases hread
    have hblank : ∀ m, Message.ofLine (String.ofList []) ≠ .ok m := by
      have herror : Message.ofLine (String.ofList []) = .error .empty := by decide +kernel
      intro m hread
      rw [herror] at hread
      cases hread
    simp only [mixedLines, List.forall_mem_cons, Entry.IsPlain, Message.texts]
    refine ⟨⟨by decide +kernel, by decide +kernel, by simp⟩, ⟨by decide +kernel, hhello⟩,
      ⟨by simp, hblank⟩, by simp, by simp⟩
  have hstream : mixedChunks.flatten ++ [lineFeed] = script mixedLines := by decide +kernel
  have hcut : [lineFeed] <:+ [carriageReturn, lineFeed] := by decide
  refine ⟨hplain, hcut, hstream,
    receiveChunks_script.1 mixedLines [lineFeed] mixedChunks hplain hcut hstream, ?_⟩
  have hcode : ∀ text, Utf8.encode text ≠ invalidLine := by
    intro text h
    have hread : Utf8.decode? invalidLine = none := by decide +kernel
    rw [Utf8.decode?_eq_some_iff.mpr h] at hread
    cases hread
  have hlines : ∀ line ∈ mixedLines.map fun e => (e.1.text, e.2), '\n' ∉ line.1 := by
    intro line hline
    obtain ⟨e, he, rfl⟩ := List.mem_map.mp hline
    exact (hplain e he).lineFeed_not_mem
  have hsaid : (mixedLines.map fun e => (e.1.text, e.2)).filterMap (fun line => message? line.1) =
      [.connect "jos\u00e9" "1", .disconnect] := by
    decide +kernel
  rw [receiveChunks_script.2.2 (mixedLines.map fun e => (e.1.text, e.2)) invalidLine
    (lineFeed :: Message.disconnect.toBytes) _ hlines (by decide) hcode (.inr ⟨_, rfl⟩)
    (by decide +kernel), hsaid]

end Skirmish.Control

import Skirmish.Control.Message
import Skirmish.Text.Utf8
/-!
# Control streams

A control connection carries bytes; its messages are the lines. A line ends at a line feed, one
carriage return in front of it is not part of the line, and the last line needs no end. Lines that
are no message are passed over. A line that is not UTF-8 is the end of what can be read.

Bytes arrive in chunks. `Receiver` holds what has come since the last line feed, so the lines do not
depend on where the chunks were cut.
-/

namespace Skirmish.Control

def lineFeed : UInt8 := 0x0a

def carriageReturn : UInt8 := 0x0d

/-- The line without the carriage return that stood in front of its line feed. -/
def dropReturn (line : List UInt8) : List UInt8 :=
  if line.getLast? = some carriageReturn then line.dropLast else line

/-- What a line of bytes holds. -/
inductive Reading where
  | message (m : Message)
  /-- Blank, or no message. -/
  | skipped
  /-- Not UTF-8. -/
  | unreadable
deriving DecidableEq, Repr

def Reading.ofBytes (line : List UInt8) : Reading :=
  match Utf8.decode? line with
  | none => .unreadable
  | some text =>
    match Message.ofLine (String.ofList text) with
    | .ok m => .message m
    | .error _ => .skipped

/-- The bytes that have come since the last line feed. -/
structure Receiver where
  pending : List UInt8 := []
deriving DecidableEq, Repr, Inhabited

namespace Receiver

/-- The lines that a chunk completes, and what is left over. -/
def feed (r : Receiver) (chunk : List UInt8) : List (List UInt8) × Receiver :=
  let pieces := Text.splitOn (· == lineFeed) (r.pending ++ chunk)
  (pieces.dropLast.map dropReturn, ⟨pieces.getLast?.getD []⟩)

/-- The last line, when the stream ends without a line feed. -/
def finish (r : Receiver) : List (List UInt8) :=
  if r.pending = [] then [] else [r.pending]

/-- The lines of a stream that ends after the chunks. -/
def lines (r : Receiver) : List (List UInt8) → List (List UInt8)
  | [] => r.finish
  | chunk :: rest => (r.feed chunk).1 ++ (r.feed chunk).2.lines rest

end Receiver

/-- How a stream ends: the peer has finished, or a line could not be read. -/
inductive Ending where
  | endOfStream
  | unreadableLine
deriving DecidableEq, Repr

/-- The messages on the lines of a stream, and how it ends. -/
def receive : List (List UInt8) → List Message × Ending
  | [] => ([], .endOfStream)
  | line :: rest =>
    match Reading.ofBytes line with
    | .message m => (m :: (receive rest).1, (receive rest).2)
    | .skipped => receive rest
    | .unreadable => ([], .unreadableLine)

/-- What a stream delivers when it arrives in the given chunks. -/
def receiveChunks (chunks : List (List UInt8)) : List Message × Ending :=
  receive (({} : Receiver).lines chunks)

/-- A message as it is sent. -/
def Message.toBytes (m : Message) : List UInt8 := Utf8.encode m.toLine.toList ++ [lineFeed]

end Skirmish.Control

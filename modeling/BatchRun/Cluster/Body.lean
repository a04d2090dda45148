import BatchRun.Text.Encoding
import BatchRun.Time.Span

/-!
# Bodies of answers

The body of an answer arrives in chunks of bytes, one after another, and may break off or never end.
Lines may be cut anywhere between two chunks, even within a character; a line is there when the
chunk is that ends it.

* `BodyEnd`, `Chunks`, `Body`, `Body.bytes`, `Body.duration`;
* **`Body.lines`**: the lines that are ended, and what comes after the last of them;
* `readLines`: the texts of lines, up to the first that is no text.
-/

namespace BatchRun

/-- How a body ends. -/
inductive BodyEnd where
  | complete
  /-- It breaks off. -/
  | broken (reason : String)
  /-- It never ends. -/
  | endless
  deriving DecidableEq, Inhabited

/-- Bytes in the chunks in which they arrive, each some time after the one before it has been taken
in. -/
structure Chunks where
  toList : List (Timed (List UInt8))
  deriving DecidableEq, Inhabited

/-- A text that is there at once. -/
instance : Coe String Chunks := ⟨fun (s : String) => ⟨[⟨0, Text.bytes s⟩]⟩⟩

/-- The body of an answer. -/
structure Body where
  chunks : Chunks
  ending : BodyEnd
  deriving DecidableEq, Inhabited

/-- The byte that ends a line. -/
def lineFeed : UInt8 := 10

namespace Chunks

/-- Takes in a chunk behind the bytes of a line that has not ended, of which the last one comes
first: the lines that are ended with it, and the line that is not. -/
def takeIn (held : List UInt8) : List UInt8 → List (List UInt8) × List UInt8
  | [] => ([], held)
  | b :: rest =>
    if b = lineFeed then
      let (ended, held') := takeIn [] rest
      ((b :: held).reverse :: ended, held')
    else takeIn (b :: held) rest

/-- Takes in one chunk after another, the line that has not ended having been waited for already. -/
def takeInAll (waited : Nat) (held : List UInt8) :
    List (Timed (List UInt8)) → List (Timed (List UInt8)) × Timed (List UInt8)
  | [] => ([], ⟨waited, held⟩)
  | chunk :: rest =>
    let (ended, held') := takeIn held chunk.value
    let arrived := waited + chunk.wait
    let (more, left) := takeInAll (if ended = [] then arrived else 0) held' rest
    (Timed.together arrived ended ++ more, left)

end Chunks

namespace Body

/-- The bytes of a body, however they are cut into chunks. -/
def bytes (b : Body) : List UInt8 := (b.chunks.toList.map Timed.value).flatten

/-- How long it takes until all of a body has arrived. -/
def duration (b : Body) : Nat := Timed.total b.chunks.toList

/-- The lines of a body that are ended, with their ends, and what comes after the last of them. -/
def lines (b : Body) : List (Timed (List UInt8)) × Timed (List UInt8) :=
  let (ended, left) := Chunks.takeInAll 0 [] b.chunks.toList
  (ended, ⟨left.wait, left.value.reverse⟩)

end Body

/-- A line without its end. -/
def chomp (line : String) : String :=
  match line.toList.reverse with
  | '\n' :: '\r' :: rest => String.ofList rest.reverse
  | '\n' :: rest => String.ofList rest.reverse
  | _ => line

/-- The text of a line, if it is one. -/
def readLine (line : List UInt8) : Option String := (Text.ofBytes? line).map chomp

/-- The texts of lines, up to the first that is no text, whose wait is kept, if there is one. -/
def readLines : List (Timed (List UInt8)) → List (Timed String) × Option Nat
  | [] => ([], none)
  | line :: rest =>
    match readLine line.value with
    | none => ([], some line.wait)
    | some text =>
      let (texts, garbled) := readLines rest
      (⟨line.wait, text⟩ :: texts, garbled)

end BatchRun

import BatchRun.Document.Basic
import BatchRun.Document.Pointer

/-!
# Places in a document

A list of tokens leads from the root of a document to a place in it. A token is the key of a
member or the index of an item, written in decimal without leading zeros; after the last item the
token `-` stands for the next free index.

* `Document.resolve?`: the value at a place;
* `Document.addAt?`, `replaceAt?`, `removeAt?`: **a document with one place changed**, `none` when
  there is no such place;
* `Document.Change`, `Document.changeAt`: a change of the value at a place where it stands, which
  leaves its traces in the document also if it fails.
-/

namespace BatchRun

namespace Pointer

def isDigit (c : Char) : Bool := '0' ≤ c && c ≤ '9'

/-- The index that a token stands for. -/
def index? (token : String) : Option Nat :=
  match token.toList with
  | [] => none
  | ['0'] => some 0
  | c :: rest =>
    if c != '0' && (c :: rest).all isDigit then
      some ((c :: rest).foldl (fun (n : Nat) (d : Char) => n * 10 + (d.toNat - 48)) 0)
    else none

end Pointer

namespace Members

/-- The members with one value changed in place, if the key is there and the change succeeds. -/
def update? (key : String) (f : Document → Option Document) : Members → Option Members
  | [] => none
  | (k, v) :: rest =>
    if k = key then (f v).map fun w => (k, w) :: rest
    else (update? key f rest).map ((k, v) :: ·)

end Members

namespace Document

/-- The items with one of them changed, if it is there and the change succeeds. -/
def updateItem? (f : Document → Option Document) : Nat → List Document → Option (List Document)
  | _, [] => none
  | 0, x :: rest => (f x).map (· :: rest)
  | i + 1, x :: rest => (updateItem? f i rest).map (x :: ·)

/-- The value that a token leads to. -/
def step? (token : String) : Document → Option Document
  | .object ms => Members.get? token ms
  | .array xs => (Pointer.index? token).bind fun i => xs[i]?
  | _ => none

/-- The value at a place. -/
def resolve? : List String → Document → Option Document
  | [], d => some d
  | token :: rest, d => (d.step? token).bind (resolve? rest)

/-- The document with the value that a token leads to changed. -/
def updateStep? (token : String) (f : Document → Option Document) : Document → Option Document
  | .object ms => (Members.update? token f ms).map .object
  | .array xs => (Pointer.index? token).bind fun i => (updateItem? f i xs).map .array
  | _ => none

/-- The document with a value put under a token: a member is overwritten or appended, an item is
inserted before the one that has the index. -/
def put? (token : String) (value : Document) : Document → Option Document
  | .object ms => some (.object (Members.insert token value ms))
  | .array xs =>
    if token = "-" then some (.array (xs ++ [value]))
    else
      (Pointer.index? token).bind fun i =>
        if i ≤ xs.length then some (.array (xs.take i ++ value :: xs.drop i)) else none
  | _ => none

/-- The document without the value that a token leads to. -/
def drop? (token : String) : Document → Option Document
  | .object ms =>
    match Members.get? token ms with
    | some _ => some (.object (Members.swapErase token ms))
    | none => none
  | .array xs =>
    (Pointer.index? token).bind fun i =>
      if i < xs.length then some (.array (xs.eraseIdx i)) else none
  | _ => none

/-- Puts a value at a place; the root is replaced. -/
def addAt? (value : Document) : List String → Document → Option Document
  | [], _ => some value
  | [token], d => put? token value d
  | token :: next :: rest, d => d.updateStep? token (addAt? value (next :: rest))

/-- Overwrites the value at a place. -/
def replaceAt? (value : Document) : List String → Document → Option Document
  | [], _ => some value
  | token :: rest, d => d.updateStep? token (replaceAt? value rest)

/-- Removes the value at a place; the root cannot be removed. -/
def removeAt? : List String → Document → Option Document
  | [], _ => none
  | [token], d => d.drop? token
  | token :: next :: rest, d => d.updateStep? token (removeAt? (next :: rest))

/-! ## In place -/

/-- What a change in place leaves of a value, and whether it has succeeded. -/
abbrev Change := Document → Document × Bool

/-- A change that is tested before the value is touched. -/
def attempt (f : Document → Option Document) : Change
  | d =>
    match f d with
    | some e => (e, true)
    | none => (d, false)

/-- The change of the value that a token leads to. What is left of it stands in its place. -/
def changeStep (token : String) (change : Change) : Change
  | .object ms =>
    match Members.get? token ms with
    | some x =>
      let (y, done) := change x
      (.object (Members.insert token y ms), done)
    | none => (.object ms, false)
  | .array xs =>
    match Pointer.index? token with
    | some i =>
      match xs[i]? with
      | some x =>
        let (y, done) := change x
        (.array (xs.set i y), done)
      | none => (.array xs, false)
    | none => (.array xs, false)
  | d => (d, false)

/-- The change of the value at a place. -/
def changeAt : List String → Change → Change
  | [], change => change
  | token :: rest, change => changeStep token (changeAt rest change)

end Document

end BatchRun

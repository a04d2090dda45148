/-!
# Pointers

A pointer addresses a place in a document by a list of tokens, each written after a slash. Inside
a token `~` is written `~0` and `/` is written `~1`.

* `Pointer.escape`, `Pointer.unescape`;
* `Pointer.render`, `Pointer.parse`: **the tokens of a pointer text**.
-/

namespace BatchRun

namespace Pointer

/-- Why a text is not a pointer. -/
inductive Malformed where
  | noLeadingSlash
  | badEscape
  deriving DecidableEq

/-- The wording of a malformed pointer. -/
def Malformed.message : Malformed → String
  | .noLeadingSlash =>
    "json pointer is malformed as it does not start with a backslash ('/')"
  | .badEscape =>
    "json pointer is malformed due to invalid encoding ('~' not followed by '0' or '1')"

/-- The written form of the characters of a token. -/
def escapeChars : List Char → List Char
  | [] => []
  | c :: rest =>
    if c = '~' then '~' :: '0' :: escapeChars rest
    else if c = '/' then '~' :: '1' :: escapeChars rest
    else c :: escapeChars rest

/-- The written form of a token. -/
def escape (token : String) : String := String.ofList (escapeChars token.toList)

/-- The token that a written form stands for, unless a tilde in it stands alone. -/
def unescapeChars : List Char → Option (List Char)
  | [] => some []
  | '~' :: '0' :: rest => (unescapeChars rest).map ('~' :: ·)
  | '~' :: '1' :: rest => (unescapeChars rest).map ('/' :: ·)
  | c :: rest => if c = '~' then none else (unescapeChars rest).map (c :: ·)

/-- The parts of a text between slashes; there is at least one. -/
def splitSlashes : List Char → List (List Char)
  | [] => [[]]
  | c :: rest =>
    if c = '/' then [] :: splitSlashes rest
    else
      match splitSlashes rest with
      | [] => [[c]]
      | part :: parts => (c :: part) :: parts

/-- The tokens of written forms. -/
def unescapeAll : List (List Char) → Except Malformed (List String)
  | [] => .ok []
  | part :: parts =>
    match unescapeChars part with
    | none => .error .badEscape
    | some cs => (unescapeAll parts).map (String.ofList cs :: ·)

/-- The tokens of a pointer; the empty text addresses the whole document. -/
def parse (text : String) : Except Malformed (List String) :=
  match text.toList with
  | [] => .ok []
  | c :: rest => if c = '/' then unescapeAll (splitSlashes rest) else .error .noLeadingSlash

/-- A pointer to a member of the place that a pointer addresses. -/
def child (pointer token : String) : String := pointer ++ "/" ++ escape token

/-- A pointer to an item of the place that a pointer addresses. -/
def item (pointer : String) (index : Nat) : String := s!"{pointer}/{index}"

/-- The text of a list of tokens. -/
def render (tokens : List String) : String := tokens.foldl child ""

end Pointer

end BatchRun

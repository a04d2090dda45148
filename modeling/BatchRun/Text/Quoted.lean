import BatchRun.Text.Visible

/-!
# Quoted text

Names and messages inside a report stand between quotes, with everything escaped that a reader
could not see.

* `Text.quoted`: a text between quotes;
* `Text.quotedOption`: the same for a text that may be missing.
-/

namespace BatchRun

namespace Text

/-- The hexadecimal digits of a number, lower case. -/
def hexChars (n : Nat) : List Char := Nat.toDigits 16 n

/-- What stands for a character between quotes. -/
def quoteChar (c : Char) : List Char :=
  if c = '"' then ['\\', '"']
  else if c = '\\' then ['\\', '\\']
  else if c = '\n' then ['\\', 'n']
  else if c = '\r' then ['\\', 'r']
  else if c = '\t' then ['\\', 't']
  else if c.toNat = 0 then ['\\', '0']
  else if isExtending c || isHidden c then
    '\\' :: 'u' :: '{' :: hexChars c.toNat ++ ['}']
  else [c]

/-- A text between quotes. -/
def quoted (s : String) : String :=
  String.ofList ('"' :: s.toList.flatMap quoteChar ++ ['"'])

/-- A text that may be missing. -/
def quotedOption : Option String → String
  | none => "None"
  | some s => s!"Some({quoted s})"

end Text

end BatchRun

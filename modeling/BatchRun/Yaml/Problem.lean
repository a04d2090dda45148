/-!
# What can be wrong with a YAML text

* `Yaml.Problem`: the reasons for which a text is refused;
* `Yaml.Problem.message`: their wording.
-/

namespace BatchRun

namespace Yaml

/-- A reason for refusing a text. -/
inductive Problem where
  -- directives
  | directiveName | directiveNameChar | directiveEnd | versionSeparator | versionNumber
  | versionTooLong | duplicateVersion | duplicateTagHandle | directiveWithoutEnd
  | documentStart
  -- tags
  | tagMark | tagDirectiveMark | tagDirectiveEnd | tagLead | verbatimTagEnd | tagEnd | tagUri
  | tagOctet | tagLeadingOctet | tagTrailingOctet | tagCodePoint | undeclaredHandle
  -- anchors and aliases
  | anchorName | unknownAnchor | anchorIndentation
  -- indentation and blanks
  | indentation | flowIndentation | quotedIndentation | blockScalarIndentation
  | tabIndentation | tabInPlain | tabInQuoted | tabAfterKey | tabBeforeBlockScalar
  | blankAfterKey | blankAfterDash | blankAfterColon | commentWithoutBlank
  -- documents
  | contentAfterEnd | markerInQuoted
  -- block structure
  | keyExpected | keyWithoutColon | entryNotAllowed | entryInFlow | keyNotAllowed
  | valueNotAllowed | valuePlacement | blockKey | blockEntry
  -- flow structure
  | tooDeep | flowMappingEnd | flowSequenceEnd | nodeContent
  -- scalars
  | unexpected (char : Char) | unterminatedQuoted | trailingContent | unknownEscape | hexDigits
  | escapedCodePoint | zeroIndentation | blockScalarHeader | dashBeforeFlow
  -- contents
  | duplicateKey (key : String)
  deriving DecidableEq, Inhabited

/-- The wording of a problem. -/
def Problem.message : Problem → String
  | directiveName => "while scanning a directive, could not find expected directive name"
  | directiveNameChar =>
    "while scanning a directive, found unexpected non-alphabetical character"
  | directiveEnd => "while scanning a directive, did not find expected comment or line break"
  | versionSeparator =>
    "while scanning a YAML directive, did not find expected digit or '.' character"
  | versionNumber => "while scanning a YAML directive, did not find expected version number"
  | versionTooLong => "while scanning a YAML directive, found extremely long version number"
  | duplicateVersion => "duplicate version directive"
  | duplicateTagHandle =>
    "the TAG directive must only be given at most once per handle in the same document"
  | directiveWithoutEnd => "missing explicit document end marker before directive"
  | documentStart => "did not find expected <document start>"
  | tagMark => "while scanning a tag, did not find expected '!'"
  | tagDirectiveMark => "while parsing a tag directive, did not find expected '!'"
  | tagDirectiveEnd => "while scanning TAG, did not find expected whitespace or line break"
  | tagLead => "invalid global tag character"
  | verbatimTagEnd => "while scanning a verbatim tag, did not find the expected '>'"
  | tagEnd => "while scanning a tag, did not find expected whitespace or line break"
  | tagUri => "while parsing a tag, did not find expected tag URI"
  | tagOctet => "while parsing a tag, did not find URI escaped octet"
  | tagLeadingOctet => "while parsing a tag, found an incorrect leading UTF-8 octet"
  | tagTrailingOctet => "while parsing a tag, found an incorrect trailing UTF-8 octet"
  | tagCodePoint => "while parsing a tag, found an invalid UTF-8 codepoint"
  | undeclaredHandle => "the handle wasn't declared"
  | anchorName =>
    "while scanning an anchor or alias, did not find expected alphabetic or numeric character"
  | unknownAnchor => "while parsing node, found unknown anchor"
  | anchorIndentation => "invalid indentation for anchor"
  | indentation => "invalid indentation"
  | flowIndentation => "invalid indentation in flow construct"
  | quotedIndentation => "invalid indentation in quoted scalar"
  | blockScalarIndentation => "wrongly indented line in block scalar"
  | tabIndentation => "tabs disallowed within this context (block indentation)"
  | tabInPlain => "while scanning a plain scalar, found a tab"
  | tabInQuoted => "tab cannot be used as indentation"
  | tabAfterKey => "tabs disallowed in this context"
  | tabBeforeBlockScalar => "a block scalar content cannot start with a tab"
  | blankAfterKey => "expected whitespace"
  | blankAfterDash => "'-' must be followed by a valid YAML whitespace"
  | blankAfterColon => "':' must be followed by a valid YAML whitespace"
  | commentWithoutBlank => "comments must be separated from other tokens by whitespace"
  | contentAfterEnd => "invalid content after document end marker"
  | markerInQuoted => "while scanning a quoted scalar, found unexpected document indicator"
  | keyExpected => "simple key expected"
  | keyWithoutColon => "simple key expect ':'"
  | entryNotAllowed => "block sequence entries are not allowed in this context"
  | entryInFlow => "\"-\" is only valid inside a block"
  | keyNotAllowed => "mapping keys are not allowed in this context"
  | valueNotAllowed => "mapping values are not allowed in this context"
  | valuePlacement => "illegal placement of ':' indicator"
  | blockKey => "while parsing a block mapping, did not find expected key"
  | blockEntry => "while parsing a block collection, did not find expected '-' indicator"
  | tooDeep => "recursion limit exceeded"
  | flowMappingEnd => "while parsing a flow mapping, did not find expected ',' or '\x7d'"
  | flowSequenceEnd => "while parsing a flow sequence, expected ',' or ']'"
  | nodeContent => "while parsing a node, did not find expected node content"
  | unexpected c => s!"unexpected character: `{c}'"
  | unterminatedQuoted => "while scanning a quoted scalar, found unexpected end of stream"
  | trailingContent => "invalid trailing content after double-quoted scalar"
  | unknownEscape => "while parsing a quoted scalar, found unknown escape character"
  | hexDigits => "while parsing a quoted scalar, did not find expected hexadecimal number"
  | escapedCodePoint =>
    "while parsing a quoted scalar, found invalid Unicode character escape code"
  | zeroIndentation =>
    "while scanning a block scalar, found an indentation indicator equal to 0"
  | blockScalarHeader =>
    "while scanning a block scalar, did not find expected comment or line break"
  | dashBeforeFlow => "plain scalar cannot start with '-' followed by ,[]\x7b\x7d"
  | duplicateKey key => s!"{key}: duplicated key in mapping"

end Yaml

end BatchRun

import BatchRun.Slug.Fold

/-!
# Slugs

A slug is what is left of a free text for use as an object name or a label value: words of
lower-case letters and digits, joined by single dashes, cut to a greatest length. A slug may be
empty, but it never starts or ends with a dash.

* `Slug.joinWords`: runs of other characters become one dash between words;
* **`slugify`**, `slugifyName`, `slugifyLabel`.
-/

namespace BatchRun

namespace Slug

/-- The greatest length of a name that the server still has to extend. -/
def nameLength : Nat := 45

/-- The greatest length of a label value. -/
def labelLength : Nat := 63

/-- Words joined by single dashes. `gap` says whether separators stand before the characters,
`started` whether a word does. -/
def joinWords (started gap : Bool) : List Char → List Char
  | [] => []
  | c :: rest =>
    if isWordChar c then
      if gap && started then '-' :: c :: joinWords true false rest
      else c :: joinWords true false rest
    else joinWords started true rest

/-- The characters up to the last one that is no dash. -/
def trimDashes : List Char → List Char
  | [] => []
  | c :: rest =>
    match trimDashes rest with
    | [] => if c = '-' then [] else [c]
    | kept => c :: kept

/-- The folded characters of a text. -/
def folded (text : String) : List Char := text.toList.flatMap fold

end Slug

/-- The slug of a text, of at most `limit` characters. -/
def slugify (text : String) (limit : Nat) : String :=
  String.ofList (Slug.trimDashes ((Slug.joinWords false false (Slug.folded text)).take limit))

/-- The slug of a text for use as a name. -/
def slugifyName (text : String) : String := slugify text Slug.nameLength

/-- The slug of a text for use as a label value. -/
def slugifyLabel (text : String) : String := slugify text Slug.labelLength

end BatchRun

import KeyWatch.Text.Unprintable

/-!
# Quoted text

The form in which an error message shows a text: between double quotes, with a backslash before a
quote or a backslash, the short forms of NUL, tab, line feed and carriage return, and the code
point in braces for every other character without a glyph or that joins the one before it.
-/

namespace KeyWatch.Text

/-- The form in which `quotedChar` shows a character that cannot be printed: its number in
hexadecimal, in braces. -/
def codePointForm (c : Char) : String :=
  "\\u\x7b" ++ String.ofList (Nat.toDigits 16 c.toNat) ++ "\x7d"

/-- A character as it stands in a text in quotes: behind a backslash, in its short form, as its
`codePointForm`, or as it is. -/
def quotedChar (c : Char) : String :=
  if c = '"' then "\\\""
  else if c = '\\' then "\\\\"
  else if c = '\n' then "\\n"
  else if c = '\r' then "\\r"
  else if c = '\t' then "\\t"
  else if c = '\x00' then "\\0"
  else if isUnprintable c || isExtending c then codePointForm c
  else c.toString

/-- A text in double quotes, character by character (`quotedChar`). Error messages show ids, keys
and input that way. -/
def quoted (s : String) : String :=
  "\"" ++ s.toList.foldl (fun shown c => shown ++ quotedChar c) "" ++ "\""

end KeyWatch.Text

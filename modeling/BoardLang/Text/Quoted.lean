import BoardLang.Text.Unprintable

/-!
# Quoted text

A text is shown between quotation marks with the characters that would not show, or would end the
quotation, written as escapes. Texts stand in double quotes and single characters in single
quotes; each escapes only its own mark.
-/

namespace BoardLang.Text

/-- The number of a code point, in braces and in lower-case hexadecimal without leading zeros. -/
def codePointEscape (c : Char) : List Char :=
  ['\\', 'u', '\x7b'] ++ Nat.toDigits 16 c.toNat ++ ['\x7d']

/-- How `c` is written between two marks `mark`. -/
def escape (mark c : Char) : List Char :=
  if c = '\x00' then ['\\', '0']
  else if c = '\t' then ['\\', 't']
  else if c = '\r' then ['\\', 'r']
  else if c = '\n' then ['\\', 'n']
  else if c = '\\' ∨ c = mark then ['\\', c]
  else if isUnprintable c then codePointEscape c
  else [c]

def quotedWith (mark : Char) (text : List Char) : String :=
  String.ofList (mark :: text.flatMap (escape mark) ++ [mark])

def quoted (text : String) : String := quotedWith '"' text.toList

def quotedChar (c : Char) : String := quotedWith '\'' [c]

end BoardLang.Text

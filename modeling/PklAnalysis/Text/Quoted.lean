import PklAnalysis.Text.Printable

/-!
Texts in double quotes, as descriptions of values show them.
-/

namespace PklAnalysis.Text

/-- A character between quotes. Quotes, backslashes and some controls have a
short escape; characters that do not show as themselves are written by their
code. -/
def quotedChar (c : Char) : List Char :=
  if c = '"' then ['\\', '"']
  else if c = '\\' then ['\\', '\\']
  else if c = '\n' then ['\\', 'n']
  else if c = '\r' then ['\\', 'r']
  else if c = '\t' then ['\\', 't']
  else if c.toNat = 0 then ['\\', '0']
  else if isPrintable c then [c]
  else ['\\', 'u', '\x7b'] ++ Nat.toDigits 16 c.toNat ++ ['\x7d']

def quoted (text : String) : String :=
  String.ofList ('"' :: text.toList.flatMap quotedChar ++ ['"'])

end PklAnalysis.Text

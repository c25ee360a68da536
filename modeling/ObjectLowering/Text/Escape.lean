/-
**Escaping text for a quoted literal.**

A backslash and the quote get a backslash in front; line feed, carriage return, tab and NUL have
letters of their own; any other control character is `\x` with two hexadecimal digits; everything
else stands for itself.

* `escape` escapes a text for a quote.
-/

namespace ObjectLowering.Text

def hexDigit (value : Nat) : Char :=
  if value < 10 then Char.ofNat ('0'.toNat + value) else Char.ofNat ('a'.toNat + value - 10)

def hexByte (value : Nat) : List Char := [hexDigit (value / 16 % 16), hexDigit (value % 16)]

/-- Whether a character is a control character. -/
def isControl (char : Char) : Bool :=
  char.toNat < 32 || 127 ≤ char.toNat && char.toNat < 160

def escapeChar (quote char : Char) : List Char :=
  if char = '\\' then ['\\', '\\']
  else if char = '\n' then ['\\', 'n']
  else if char = '\r' then ['\\', 'r']
  else if char = '\t' then ['\\', 't']
  else if char.toNat = 0 then ['\\', '0']
  else if char = quote then ['\\', char]
  else if isControl char then '\\' :: 'x' :: hexByte char.toNat
  else [char]

def escape (quote : Char) (text : String) : String :=
  String.ofList (text.toList.flatMap (escapeChar quote))

end ObjectLowering.Text

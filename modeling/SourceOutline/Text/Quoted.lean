import SourceOutline.Text.Printable

/-! Text in double quotes with its unprintable characters spelled out, as error messages show it. -/

namespace SourceOutline.Text

/-- Hexadecimal digits without leading zeros, in lower case. -/
def hexDigits (n : Nat) : List Char :=
  -- Zero is written with one digit.
  Nat.toDigits 16 n

/-- A character as it stands between double quotes. -/
def quotedChar (c : Char) : List Char :=
  -- Marks are spelled out as well, because they would join the character before them.
  if c == '\x00' then ['\\', '0']
  else if c == '\t' then ['\\', 't']
  else if c == '\n' then ['\\', 'n']
  else if c == '\r' then ['\\', 'r']
  else if c == '"' then ['\\', '"']
  else if c == '\\' then ['\\', '\\']
  else if isCombining c || !isPrintable c then
    ['\\', 'u', '\x7b'] ++ hexDigits c.toNat ++ ['\x7d']
  else [c]

/-- A text between double quotes. -/
def quoted (text : String) : String :=
  -- Each character is spelled on its own.
  String.ofList ('"' :: text.toList.flatMap quotedChar ++ ['"'])

end SourceOutline.Text

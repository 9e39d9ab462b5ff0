import ServiceHost.Text.Printable

/-!
# Quoted text — a text shown between quotes, on one line, with nothing hidden

Debug views (`CapabilityId("a:b")`, `Implementor { … }`) show the texts they hold this way: a
quote and a backslash take a backslash, the four controls that have a letter are written by it,
and a character that is not printable is written by its number.
-/

set_option autoImplicit false

namespace ServiceHost.Text

/-- The lower-case hexadecimal digits of `n`, without leading zeros. -/
def hexDigits (n : Nat) : List Char :=
  Nat.toDigits 16 n

/-- One character as it stands between quotes. -/
def quotedChar (c : Char) : List Char :=
  if c = '"' then ['\\', '"']
  else if c = '\\' then ['\\', '\\']
  else if c = '\n' then ['\\', 'n']
  else if c = '\r' then ['\\', 'r']
  else if c = '\t' then ['\\', 't']
  else if c = '\x00' then ['\\', '0']
  else if isPrintable c then [c]
  else ['\\', 'u', '\x7b'] ++ hexDigits c.toNat ++ ['\x7d']

/-- The text between quotes. -/
def quoted (text : String) : String :=
  String.ofList ('"' :: text.toList.flatMap quotedChar ++ ['"'])

end ServiceHost.Text

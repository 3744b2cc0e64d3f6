/-
TaskTimer.Text.Quoted — text in quotation marks, as debugging text shows it.

A quotation mark and a backslash are escaped by a backslash; tab, line feed, carriage return and
the null character have escapes of their own; any other character that is not printable is
given by its code point, as in `\u{7f}`. Everything else stands for itself.
-/
import TaskTimer.Text.Digits
import TaskTimer.Text.Printable

namespace TaskTimer

namespace Quoted

/-- How one character is shown between quotation marks. -/
def escape (c : Char) : List Char :=
  if c = '"' then ['\\', '"']
  else if c = '\\' then ['\\', '\\']
  else if c = '\t' then ['\\', 't']
  else if c = '\n' then ['\\', 'n']
  else if c = '\r' then ['\\', 'r']
  else if c = Char.ofNat 0 then ['\\', '0']
  else if isPrintable c then [c]
  else ['\\', 'u', '\x7b'] ++ Digits.hexShort c.toNat ++ ['\x7d']

end Quoted

/-- The text in quotation marks. -/
def quoted (s : String) : String :=
  String.ofList ('"' :: s.toList.flatMap Quoted.escape ++ ['"'])

end TaskTimer

import ManagedRuntime.Text.Combining
import ManagedRuntime.Text.Hex
import ManagedRuntime.Text.Unprintable

/-!
Quoted names in messages. A quote and a backslash are written after a backslash, line feed,
carriage return, tab and NUL by their letters, and any other character that does not print as
its code point in braces. Everything else is written as it is.
-/
namespace ManagedRuntime.Text

/-- Does a character stand for itself? One that attaches to the character before it does not. -/
def prints (c : Char) : Bool := !covers unprintable c.toNat && !covers combining c.toNat

def quoteChar (c : Char) : List Char :=
  if c = '"' then ['\\', '"']
  else if c = '\\' then ['\\', '\\']
  else if c = '\n' then ['\\', 'n']
  else if c = '\r' then ['\\', 'r']
  else if c = '\t' then ['\\', 't']
  else if c.toNat = 0 then ['\\', '0']
  else if prints c then [c]
  else ['\\', 'u', '\x7b'] ++ (hex c.toNat).toList ++ ['\x7d']

def quoted (s : String) : String :=
  String.ofList ('"' :: (s.toList.flatMap quoteChar ++ ['"']))

end ManagedRuntime.Text

import WebClient.Text.Numeral
import WebClient.Text.Unprintable

/-!
# Quoted text

A message that names a value from outside, such as a header name or a setting, shows it between
double quotes, with the quote, the backslash and everything that cannot be seen written as an
escape. Single quotes stand as they are.
-/

namespace WebClient.Text

/-- A character as it stands in a quoted text. -/
def escapeChar (c : Char) : List Char :=
  match c with
  | '\x00' => ['\\', '0']
  | '\t' => ['\\', 't']
  | '\n' => ['\\', 'n']
  | '\r' => ['\\', 'r']
  | '"' => ['\\', '"']
  | '\\' => ['\\', '\\']
  | _ =>
    if isUnprintable c then ['\\', 'u', '\x7b'] ++ hexadecimal c.toNat ++ ['\x7d'] else [c]

def quoted (s : String) : String :=
  String.ofList ('"' :: s.toList.flatMap escapeChar ++ ['"'])

end WebClient.Text

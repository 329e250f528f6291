import TrafficPolicy.Text.Shown
import TrafficPolicy.Text.Blank

/-!
# Quoted literals

A text in double quotes, in which every character that would not show is written as an escape.
-/

namespace TrafficPolicy.Text

def hexText (n : Nat) : String :=
  String.ofList (Nat.toDigits 16 n)

def literalChar : Char → String
  | '\x00' => "\\0"
  | '\t' => "\\t"
  | '\n' => "\\n"
  | '\r' => "\\r"
  | '"' => "\\\""
  | '\\' => "\\\\"
  | c => if shownSet.contains c then c.toString else "\\u\x7b" ++ hexText c.toNat ++ "\x7d"

def literal (text : String) : String :=
  if text.toList.all fun c => 0x20 ≤ c.toNat && c.toNat < 0x7F && c != '"' && c != '\\' then
    "\"" ++ text ++ "\""
  else "\"" ++ String.join (text.toList.map literalChar) ++ "\""

end TrafficPolicy.Text

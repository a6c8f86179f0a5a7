import Flowgraph.Text.Unprintable
import Flowgraph.Text.GraphemeExtend
import Flowgraph.Text.DefaultIgnorable

/-!
# Quoted text

Names and messages are quoted where they stand inside other text. A quoted text is one line of
printed characters: the quote and the backslash get a backslash, the common control characters have
short forms, and every other character that would not be seen, or would be drawn into its
neighbour, is written by its code point. A single quote stands for itself.
-/

namespace Flowgraph.Text

/-- Whether a character is written by its code point. Among the ASCII characters these are the
controls, which are told apart without a look at the tables. -/
def isHidden (char : Char) : Bool :=
  if char.toNat < 0x7F then
    char.toNat < 0x20
  else
    isUnprintable char || isGraphemeExtend char || isDefaultIgnorable char

/-- A character as it stands in quoted text. -/
def escape (char : Char) : String :=
  match char with
  | '\x00' => "\\0"
  | '\t' => "\\t"
  | '\r' => "\\r"
  | '\n' => "\\n"
  | '"' => "\\\""
  | '\\' => "\\\\"
  | char =>
    if isHidden char then
      "\\u\x7b" ++ String.ofList (Nat.toDigits 16 char.toNat) ++ "\x7d"
    else
      char.toString

/-- Text between double quotes, with its characters escaped as needed. -/
def quote (text : String) : String :=
  "\"" ++ String.join (text.toList.map escape) ++ "\""

end Flowgraph.Text

import CommunityGraph.Text.GraphemeExtend
import CommunityGraph.Text.Printable

/-! Text in quotes, so that every character in it can be told: quotes, backslashes and line breaks
are escaped, and what is not seen or joins the character before it stands as a code point. -/
namespace CommunityGraph.Text

def letterEscapes : List (Char × Char) :=
  [('\x00', '0'), ('\t', 't'), ('\r', 'r'), ('\n', 'n'), ('\\', '\\'), ('"', '"')]

def codeEscape (c : Char) : List Char :=
  ['\\', 'u', '\x7b'] ++ Nat.toDigits 16 c.toNat ++ ['\x7d']

def escaped (c : Char) : List Char :=
  match letterEscapes.lookup c with
  | some letter => ['\\', letter]
  | none => if isGraphemeExtend c || !isPrintable c then codeEscape c else [c]

def quoted (text : String) : String :=
  String.ofList ('"' :: text.toList.flatMap escaped ++ ['"'])

end CommunityGraph.Text

/-! Characters of a document with their places. Every line break is one character: a line feed, or
one of the two separators of Unicode, which stay as they are. -/
namespace CommunityGraph.Settings

structure Glyph where
  char : Char
  index : Nat
  line : Nat
  column : Nat
  deriving DecidableEq, Repr

def isSeparator (c : Char) : Bool := c = '\u2028' || c = '\u2029'

def isAllowed (c : Char) : Bool :=
  let n := c.toNat
  n = 0x09 || n = 0x0a || n = 0x0d || (0x20 ≤ n && n ≤ 0x7e) || n = 0x85 ||
    (0xa0 ≤ n && n ≤ 0xfffd) || 0x10000 ≤ n

def endsLine (c : Char) : Bool := c = '\n' || c = '\r' || c = '\u0085'

namespace Glyph

def isBlank (g : Glyph) : Bool := g.char = ' ' || g.char = '\t'

def isBreak (g : Glyph) : Bool := g.char = '\n' || isSeparator g.char

def placed (index line column : Nat) : List Char → List Glyph
  | [] => []
  | '\r' :: '\n' :: rest => ⟨'\n', index, line, column⟩ :: placed (index + 2) (line + 1) 0 rest
  | c :: rest =>
      if endsLine c then ⟨'\n', index, line, column⟩ :: placed (index + 1) (line + 1) 0 rest
      else if isSeparator c then ⟨c, index, line, column⟩ :: placed (index + 1) (line + 1) 0 rest
      else ⟨c, index, line, column⟩ :: placed (index + 1) line (column + 1) rest

def ofText? (text : List Char) : Option (List Glyph) :=
  if text.all isAllowed then some (placed 0 0 0 text) else none

def endsWord : List Glyph → Bool
  | [] => true
  | g :: _ => g.isBlank || g.isBreak

def startsWith (c : Char) : List Glyph → Bool
  | [] => false
  | g :: _ => g.char = c

def startsWithAny (cs : List Char) : List Glyph → Bool
  | [] => false
  | g :: _ => g.char ∈ cs

def isMarker (c : Char) : List Glyph → Bool
  | x :: y :: z :: rest =>
      x.column = 0 && x.char = c && y.char = c && z.char = c && endsWord rest
  | _ => false

def isDocumentMarker (gs : List Glyph) : Bool := isMarker '-' gs || isMarker '.' gs

def skipBlanks (gs : List Glyph) : List Glyph := gs.dropWhile isBlank

def afterLine? (gs : List Glyph) : Option (List Glyph) :=
  let gs := skipBlanks gs
  let gs := if startsWith '#' gs then gs.dropWhile fun g => !g.isBreak else gs
  match gs with
  | [] => some []
  | g :: rest => if g.isBreak then some rest else none

end Glyph
end CommunityGraph.Settings

import CommunityGraph.Settings.Glyph
import CommunityGraph.Settings.Token
import CommunityGraph.Text.Blank

/-! What may stand before a value or before a document: the names of anchors, tags, and directives
that give the version and the short forms of tags. -/
namespace CommunityGraph.Settings.Property

def isNameChar (g : Glyph) : Bool := g.char.isAlphanum || g.char = '-' || g.char = '_'

def tagMarks : List Char :=
  [';', '/', '?', ':', '@', '&', '=', '+', '$', '.', '%', '!', '~', '*', '\'', '(', ')']

def isTagChar (enclosed : Bool) (g : Glyph) : Bool :=
  isNameChar g || g.char ∈ tagMarks || (enclosed && g.char ∈ [',', '[', ']'])

def charsOf (gs : List Glyph) : List Char := gs.map Glyph.char

def stringOf (gs : List Glyph) : String := String.ofList (charsOf gs)

def tagBytes? : List Char → Option (List UInt8)
  | [] => some []
  | '%' :: a :: b :: rest => do
      let high ← Word.digitOf? 16 a
      let low ← Word.digitOf? 16 b
      let bytes ← tagBytes? rest
      some (UInt8.ofNat (16 * high + low) :: bytes)
  | c :: rest =>
      if c = '%' then none else (tagBytes? rest).map fun bytes => UInt8.ofNat c.toNat :: bytes

def tagText? (gs : List Glyph) : Option String :=
  ((tagBytes? (charsOf gs)).bind Text.utf8?).map String.ofList

def name? (gs : List Glyph) : Option (String × List Glyph) :=
  let name := gs.takeWhile isNameChar
  let rest := gs.dropWhile isNameChar
  let ends := Glyph.endsWord rest ||
    Glyph.startsWithAny ['?', ':', ',', ']', '\x7d', '%', '@', '\x60'] rest
  if name.isEmpty || !ends then none else some (stringOf name, rest)

def tagParts? (gs : List Glyph) : Option (String × String × List Glyph) :=
  if Glyph.startsWith '<' gs then
    let inside := (gs.drop 1).takeWhile (isTagChar true)
    let rest := (gs.drop 1).dropWhile (isTagChar true)
    if inside.isEmpty || !Glyph.startsWith '>' rest then none
    else (tagText? inside).map fun text => ("", text, rest.drop 1)
  else
    let name := gs.takeWhile isNameChar
    let after := gs.dropWhile isNameChar
    if Glyph.startsWith '!' after then
      let suffix := (after.drop 1).takeWhile (isTagChar false)
      let rest := (after.drop 1).dropWhile (isTagChar false)
      if suffix.isEmpty then none
      else (tagText? suffix).map fun text => ("!" ++ stringOf name ++ "!", text, rest)
    else
      let suffix := gs.takeWhile (isTagChar false)
      let rest := gs.dropWhile (isTagChar false)
      if suffix.isEmpty then some ("", "!", rest)
      else (tagText? suffix).map fun text => ("!", text, rest)

def tag? (inFlow : Bool) (gs : List Glyph) : Option (Token × List Glyph) :=
  (tagParts? gs).bind fun (handle, suffix, rest) =>
    if Glyph.endsWord rest || (inFlow && Glyph.startsWith ',' rest) then
      some (.tag handle suffix, rest)
    else none

def number? (gs : List Glyph) : Option (Nat × List Glyph) :=
  let digits := gs.takeWhile fun g => g.char.isDigit
  if 9 < digits.length then none
  else (Literal.natural? (charsOf digits)).map fun n =>
    (n, gs.dropWhile fun g => g.char.isDigit)

def version? (gs : List Glyph) : Option (Token × List Glyph) := do
  let (major, rest) ← number? (Glyph.skipBlanks gs)
  if !Glyph.startsWith '.' rest then none
  let (minor, rest) ← number? (rest.drop 1)
  some (.version major minor, rest)

def handle? (gs : List Glyph) : Option (Token × List Glyph) := do
  let gs := Glyph.skipBlanks gs
  if !Glyph.startsWith '!' gs then none
  let name := (gs.drop 1).takeWhile isNameChar
  let after := (gs.drop 1).dropWhile isNameChar
  let closed := Glyph.startsWith '!' after
  if !closed && !name.isEmpty then none
  let handle := "!" ++ stringOf name ++ (if closed then "!" else "")
  let after := if closed then after.drop 1 else after
  let gs := Glyph.skipBlanks after
  let start := gs.takeWhile (isTagChar true)
  let rest := gs.dropWhile (isTagChar true)
  if gs.length = after.length || start.isEmpty || !Glyph.endsWord rest then none
  let text ← tagText? start
  some (.handle handle text, rest)

def directive? (gs : List Glyph) : Option (Token × List Glyph) := do
  let name := gs.takeWhile isNameChar
  let after := gs.dropWhile isNameChar
  if !Glyph.endsWord after then none
  let (token, rest) ←
    if stringOf name = "YAML" then version? after
    else if stringOf name = "TAG" then handle? after
    else none
  let rest ← Glyph.afterLine? rest
  some (token, rest)

end CommunityGraph.Settings.Property

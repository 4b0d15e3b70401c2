import CommunityGraph.Settings.Scalar.Block
import CommunityGraph.Settings.Scalar.Plain
import CommunityGraph.Settings.Scalar.Quoted
import CommunityGraph.Settings.Token.Property

/-! Cutting a document into tokens. Outside of brackets, indentation opens and closes blocks. A
token that may turn out to be a key is remembered until its line ends or 1024 characters have
passed; where only a key can stand, it must turn out to be one. -/
namespace CommunityGraph.Settings

structure PossibleKey where
  position : Nat
  index : Nat
  line : Nat
  column : Nat
  required : Bool
  deriving DecidableEq, Repr

structure Scan where
  rest : List Glyph
  tokens : List Token
  key : Option PossibleKey
  outerKeys : List (Option PossibleKey)
  margin : Nat
  outerMargins : List Nat
  keyAllowed : Bool

namespace Scan

def start (gs : List Glyph) : Scan := ⟨gs, [], none, [], 0, [], true⟩

def inFlow (s : Scan) : Bool := !s.outerKeys.isEmpty

def push (s : Scan) (token : Token) (rest : List Glyph) : Scan :=
  { s with tokens := token :: s.tokens, rest := rest }

def skip (inFlow keyAllowed inComment : Bool) : List Glyph → Bool × List Glyph
  | [] => (keyAllowed, [])
  | g :: gs =>
      if g.isBreak then skip inFlow (keyAllowed || !inFlow) false gs
      else if inComment then skip inFlow keyAllowed true gs
      else if g.char = ' ' then skip inFlow keyAllowed false gs
      else if g.char = '\t' && (inFlow || !keyAllowed) then skip inFlow keyAllowed false gs
      else if g.char = '#' then skip inFlow keyAllowed true gs
      else (keyAllowed, g :: gs)

def skipped (s : Scan) : Scan :=
  match skip s.inFlow s.keyAllowed false s.rest with
  | (keyAllowed, rest) => { s with keyAllowed := keyAllowed, rest := rest }

def expired? (g : Glyph) : Option PossibleKey → Option (Option PossibleKey)
  | none => some none
  | some key =>
      if key.line < g.line || key.index + 1024 < g.index then
        if key.required then none else some none
      else some (some key)

def expire? (s : Scan) (g : Glyph) : Option Scan := do
  let key ← expired? g s.key
  let outerKeys ← s.outerKeys.mapM (expired? g)
  some { s with key := key, outerKeys := outerKeys }

def closeBlocks (limit : Nat) (tokens : List Token) (margin : Nat) :
    List Nat → List Token × Nat × List Nat
  | [] => (tokens, margin, [])
  | outer :: rest =>
      if limit < margin then closeBlocks limit (.blockEnd :: tokens) outer rest
      else (tokens, margin, outer :: rest)

def outdent (s : Scan) (limit : Nat) : Scan :=
  if s.inFlow then s
  else
    match closeBlocks limit s.tokens s.margin s.outerMargins with
    | (tokens, margin, outer) =>
        { s with tokens := tokens, margin := margin, outerMargins := outer }

def insertAt (position : Nat) (token : Token) (tokens : List Token) : List Token :=
  tokens.insertIdx (tokens.length - position) token

def indent (s : Scan) (column : Nat) (token : Token) (position : Nat) : Scan :=
  if s.inFlow || column < s.margin then s
  else
    { s with
      tokens := insertAt position token s.tokens
      margin := column + 1
      outerMargins := s.margin :: s.outerMargins }

def dropKey? (s : Scan) : Option Scan :=
  match s.key with
  | some key => if key.required then none else some { s with key := none }
  | none => some s

def saveKey? (s : Scan) (g : Glyph) : Option Scan :=
  if s.keyAllowed then
    s.dropKey?.map fun s =>
      let required := !s.inFlow && s.margin = g.column + 1
      { s with key := some ⟨s.tokens.length, g.index, g.line, g.column, required⟩ }
  else some s

def word? (s : Scan) (g : Glyph) (token : Token) (rest : List Glyph) : Option Scan :=
  (s.saveKey? g).map fun s => { s.push token rest with keyAllowed := false }

def betweenDocuments? (s : Scan) (token : Token) (rest : List Glyph) : Option Scan :=
  (s.outdent 0).dropKey?.map fun s => { s.push token rest with keyAllowed := false }

def openFlow? (s : Scan) (g : Glyph) (token : Token) (rest : List Glyph) : Option Scan :=
  (s.saveKey? g).map fun s =>
    { s.push token rest with
      key := none, outerKeys := s.key :: s.outerKeys, keyAllowed := true }

def closeFlow? (s : Scan) (token : Token) (rest : List Glyph) : Option Scan :=
  s.dropKey?.map fun s =>
    match s.outerKeys with
    | [] => { s.push token rest with keyAllowed := false }
    | key :: outer => { s.push token rest with key := key, outerKeys := outer, keyAllowed := false }

def comma? (s : Scan) (rest : List Glyph) : Option Scan :=
  s.dropKey?.map fun s => { s.push .comma rest with keyAllowed := true }

def dash? (s : Scan) (g : Glyph) (rest : List Glyph) : Option Scan :=
  if !s.inFlow && !s.keyAllowed then none
  else
    (s.indent g.column .listStart s.tokens.length).dropKey?.map fun s =>
      { s.push .dash rest with keyAllowed := true }

def keyMark? (s : Scan) (g : Glyph) (rest : List Glyph) : Option Scan :=
  if !s.inFlow && !s.keyAllowed then none
  else
    (s.indent g.column .mappingStart s.tokens.length).dropKey?.map fun s =>
      { s.push .key rest with keyAllowed := !s.inFlow }

def colon? (s : Scan) (g : Glyph) (rest : List Glyph) : Option Scan :=
  match s.key with
  | some key =>
      let s := { s with tokens := insertAt key.position .key s.tokens, key := none }
      let s := s.indent key.column .mappingStart key.position
      some { s.push .colon rest with keyAllowed := false }
  | none =>
      if !s.inFlow && !s.keyAllowed then none
      else
        let s := s.indent g.column .mappingStart s.tokens.length
        some { s.push .colon rest with keyAllowed := !s.inFlow }

def block? (s : Scan) (folds : Bool) (rest : List Glyph) : Option Scan :=
  s.dropKey?.bind fun s =>
    (Block.scan folds s.margin rest).map fun (text, rest) =>
      let style := if folds then ScalarStyle.folded else .literal
      { s.push (.scalar style text) rest with keyAllowed := true }

def plain? (s : Scan) (g : Glyph) : Option Scan :=
  (s.saveKey? g).bind fun s =>
    (Plain.scan s.inFlow s.margin .empty [] s.rest).map fun found =>
      { s.push (.scalar .plain found.text) found.rest with keyAllowed := found.brokeLine }

def indicators : List Char :=
  ['-', '?', ':', ',', '[', ']', '\x7b', '\x7d', '#', '&', '*', '!', '|', '>', '\'', '"', '%',
    '@', '\x60']

/-- Whether a plain scalar begins here. A dash, and outside of brackets a question mark or a colon,
may begin one when something follows it directly. -/
def startsPlain (inFlow : Bool) (g : Glyph) (gs : List Glyph) : Bool :=
  (!g.isBlank && !(g.char ∈ indicators)) ||
    (g.char = '-' && !Glyph.startsWithAny [' ', '\t'] gs) ||
    (!inFlow && (g.char = '?' || g.char = ':') && !Glyph.endsWord gs)

def token? (s : Scan) (g : Glyph) (gs : List Glyph) : Option Scan :=
  let alone := Glyph.endsWord gs
  if g.column = 0 && g.char = '%' then
    (Property.directive? gs).bind fun (token, rest) => s.betweenDocuments? token rest
  else if Glyph.isMarker '-' (g :: gs) then s.betweenDocuments? .documentStart (gs.drop 2)
  else if Glyph.isMarker '.' (g :: gs) then s.betweenDocuments? .documentEnd (gs.drop 2)
  else if g.char = '[' then s.openFlow? g .bracketOpen gs
  else if g.char = '\x7b' then s.openFlow? g .braceOpen gs
  else if g.char = ']' then s.closeFlow? .bracketClose gs
  else if g.char = '\x7d' then s.closeFlow? .braceClose gs
  else if g.char = ',' then s.comma? gs
  else if g.char = '-' && alone then s.dash? g gs
  else if g.char = '?' && (s.inFlow || alone) then s.keyMark? g gs
  else if g.char = ':' && (s.inFlow || alone) then s.colon? g gs
  else if g.char = '*' then
    (Property.name? gs).bind fun (name, rest) => s.word? g (.alias name) rest
  else if g.char = '&' then
    (Property.name? gs).bind fun (name, rest) => s.word? g (.anchor name) rest
  else if g.char = '!' then
    (Property.tag? s.inFlow gs).bind fun (token, rest) => s.word? g token rest
  else if g.char = '|' && !s.inFlow then s.block? false gs
  else if g.char = '>' && !s.inFlow then s.block? true gs
  else if g.char = '\'' then
    (Quoted.single .empty [] gs).bind fun (text, rest) =>
      s.word? g (.scalar .singleQuoted text) rest
  else if g.char = '"' then
    (Quoted.double .text .empty [] gs).bind fun (text, rest) =>
      s.word? g (.scalar .doubleQuoted text) rest
  else if startsPlain s.inFlow g gs then s.plain? g
  else none

def finish? (s : Scan) : Option (List Token) :=
  (s.outdent 0).dropKey?.map fun s => s.tokens.reverse

/-- Reads tokens until the text is used up; every token takes at least one character. -/
def run (s : Scan) : Option (List Token) :=
  let next := s.skipped
  match next.rest with
  | [] => next.finish?
  | g :: gs =>
      match (next.expire? g).bind fun s => (s.outdent (g.column + 1)).token? g gs with
      | none => none
      | some after => if after.rest.length < s.rest.length then after.run else none
termination_by s.rest.length

end Scan

def afterByteOrder : List Glyph → List Glyph
  | [] => []
  | g :: gs => if g.char = '\ufeff' then gs else g :: gs

def tokens? (text : List Char) : Option (List Token) :=
  (Glyph.ofText? text).bind fun gs => (Scan.start (afterByteOrder gs)).run

end CommunityGraph.Settings

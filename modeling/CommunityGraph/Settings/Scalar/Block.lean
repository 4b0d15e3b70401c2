import CommunityGraph.Settings.Glyph

/-! Scalars given by an indented block of lines. Literal ones keep their line breaks, folded ones
join lines by blanks; an indicator says what becomes of the line breaks at the end. -/
namespace CommunityGraph.Settings.Block

inductive Chomping where
  | strip
  | clip
  | keep
  deriving DecidableEq, Repr

structure Header where
  chomping : Chomping
  increment : Option Nat
  deriving DecidableEq, Repr

def chomping? (c : Char) : Option Chomping :=
  if c = '+' then some .keep else if c = '-' then some .strip else none

def increment? (c : Char) : Option Nat :=
  if c.isDigit then some (c.toNat - '0'.toNat) else none

def indicators : List Glyph → Header × List Glyph
  | [] => (⟨.clip, none⟩, [])
  | g :: gs =>
      match chomping? g.char, increment? g.char with
      | some chomping, _ =>
          match gs with
          | [] => (⟨chomping, none⟩, [])
          | h :: rest =>
              match increment? h.char with
              | some n => (⟨chomping, some n⟩, rest)
              | none => (⟨chomping, none⟩, h :: rest)
      | none, some n =>
          match gs with
          | [] => (⟨.clip, some n⟩, [])
          | h :: rest =>
              match chomping? h.char with
              | some chomping => (⟨chomping, some n⟩, rest)
              | none => (⟨.clip, some n⟩, h :: rest)
      | none, none => (⟨.clip, none⟩, g :: gs)

def header? (gs : List Glyph) : Option (Header × List Glyph) :=
  match indicators gs with
  | (header, rest) =>
      if header.increment = some 0 then none
      else (Glyph.afterLine? rest).map fun rest => (header, rest)

structure Body where
  text : List Char
  lineEnd : List Char
  emptyLines : List Char
  afterIndented : Bool

namespace Body

def empty : Body := ⟨[], [], [], false⟩

def breakLine (b : Body) (c : Char) : Body := { b with lineEnd := [c], emptyLines := [] }

def emptyLine (b : Body) (c : Char) : Body := { b with emptyLines := b.emptyLines ++ [c] }

def append (b : Body) (c : Char) : Body := { b with text := c :: b.text }

/-- Begins a line with text. Between two lines of a folded block that do not begin with a blank, a
line feed becomes a blank, or nothing where empty lines follow it. -/
def beginLine (b : Body) (folds : Bool) (g : Glyph) : Body :=
  let lineEnd :=
    if folds && b.lineEnd = ['\n'] && !b.afterIndented && !g.isBlank then
      if b.emptyLines.isEmpty then [' '] else []
    else b.lineEnd
  ⟨g.char :: (b.emptyLines.reverse ++ (lineEnd.reverse ++ b.text)), [], [], g.isBlank⟩

def finish (b : Body) (chomping : Chomping) : List Char :=
  let lineEnd := if chomping = .strip then [] else b.lineEnd
  let emptyLines := if chomping = .keep then b.emptyLines else []
  b.text.reverse ++ lineEnd ++ emptyLines

end Body

/-- The lines of a block. Until `indent` is known it is the widest margin seen, and at least
`least`; `inLine` tells that the margin of the line is over. -/
def lines (folds : Bool) (chomping : Chomping) (least : Nat) (indent : Option Nat) (widest : Nat)
    (inLine : Bool) (b : Body) : List Glyph → Option (List Char × List Glyph)
  | [] => some (b.finish chomping, [])
  | g :: gs =>
      let inMargin := (indent.map fun n => decide (g.column < n)).getD true
      if inLine then
        if g.isBreak then
          lines folds chomping least indent widest false (b.breakLine g.char) gs
        else lines folds chomping least indent widest true (b.append g.char) gs
      else if g.char = ' ' && inMargin then
        lines folds chomping least indent widest false b gs
      else if g.char = '\t' && inMargin then none
      else
        let widest := max widest g.column
        if g.isBreak then
          lines folds chomping least indent widest false (b.emptyLine g.char) gs
        else
          let width := indent.getD (max widest least)
          if g.column = width then
            lines folds chomping least (some width) widest true (b.beginLine folds g) gs
          else some (b.finish chomping, g :: gs)

def scan (folds : Bool) (margin : Nat) (gs : List Glyph) : Option (List Char × List Glyph) :=
  (header? gs).bind fun (header, rest) =>
    lines folds header.chomping (max margin 1) (header.increment.map fun n => margin - 1 + n) 0
      false .empty rest

end CommunityGraph.Settings.Block

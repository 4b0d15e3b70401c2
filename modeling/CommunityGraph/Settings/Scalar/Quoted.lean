import CommunityGraph.Settings.Gap
import CommunityGraph.Settings.Scalar

/-! Scalars in quotes. In single quotes a quote is written twice; in double quotes a backslash
begins an escape. Line breaks are folded, and the mark of a document's start or end may not stand
inside. -/
namespace CommunityGraph.Settings.Quoted

def single (gap : Gap) (text : List Char) : List Glyph → Option (List Char × List Glyph)
  | [] => none
  | g :: gs =>
      if g.isBlank || g.isBreak then single (gap.add g) text gs
      else if Glyph.isDocumentMarker (g :: gs) then none
      else
        let text := gap.behind text
        if g.char = '\'' then
          match gs with
          | [] => some (text.reverse, [])
          | h :: rest =>
              if h.char = '\'' then single .empty ('\'' :: text) rest
              else some (text.reverse, h :: rest)
        else single .empty (g.char :: text) gs

def escapes : List (Char × Nat) :=
  [('0', 0), ('a', 7), ('b', 8), ('t', 9), ('\t', 9), ('n', 10), ('v', 11), ('f', 12), ('r', 13),
    ('e', 27), (' ', 32), ('"', 34), ('/', 47), ('\\', 92), ('N', 0x85), ('_', 0xa0),
    ('L', 0x2028), ('P', 0x2029)]

def codeLengths : List (Char × Nat) := [('x', 2), ('u', 4), ('U', 8)]

def character? (code : Nat) : Option Char :=
  if code < 0xd800 || (0xdfff < code && code < 0x110000) then some (Char.ofNat code) else none

inductive Mode where
  | text
  | escape
  | code (left value : Nat)

def double (mode : Mode) (gap : Gap) (text : List Char) :
    List Glyph → Option (List Char × List Glyph)
  | [] => none
  | g :: gs =>
      match mode with
      | .text =>
          if g.isBlank || g.isBreak then double .text (gap.add g) text gs
          else if Glyph.isDocumentMarker (g :: gs) then none
          else
            let text := gap.behind text
            if g.char = '"' then some (text.reverse, gs)
            else if g.char = '\\' then double .escape .empty text gs
            else double .text .empty (g.char :: text) gs
      | .escape =>
          if g.isBreak then double .text .afterJoin text gs
          else
            match escapes.lookup g.char, codeLengths.lookup g.char with
            | some code, _ => double .text .empty (Char.ofNat code :: text) gs
            | none, some count => double (.code count 0) .empty text gs
            | none, none => none
      | .code left value =>
          match Word.digitOf? 16 g.char with
          | none => none
          | some digit =>
              let value := 16 * value + digit
              if 1 < left then double (.code (left - 1) value) .empty text gs
              else
                match character? value with
                | none => none
                | some c => double .text .empty (c :: text) gs

end CommunityGraph.Settings.Quoted

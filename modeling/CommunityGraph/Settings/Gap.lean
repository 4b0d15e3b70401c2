import CommunityGraph.Settings.Glyph

/-! White space inside a scalar. Blanks stay when no line breaks; one line break becomes a blank,
and of more of them the first is dropped. A separator of Unicode is kept like all that follow. -/
namespace CommunityGraph.Settings

structure Gap where
  blanks : List Char
  breaks : List Char
  joined : Bool
  deriving DecidableEq, Repr

namespace Gap

def empty : Gap := ⟨[], [], false⟩

def afterJoin : Gap := ⟨[], [], true⟩

def isEmpty (gap : Gap) : Bool := gap.blanks.isEmpty && gap.breaks.isEmpty

def breaksLine (gap : Gap) : Bool := !gap.breaks.isEmpty

def add (gap : Gap) (g : Glyph) : Gap :=
  if g.isBreak then { gap with breaks := gap.breaks ++ [g.char] }
  else if gap.joined || gap.breaksLine then gap
  else { gap with blanks := gap.blanks ++ [g.char] }

def folded (gap : Gap) : List Char :=
  if gap.joined then gap.breaks
  else
    match gap.breaks with
    | [] => gap.blanks
    | ['\n'] => [' ']
    | '\n' :: breaks => breaks
    | breaks => breaks

def behind (gap : Gap) (text : List Char) : List Char := gap.folded.reverse ++ text

end Gap
end CommunityGraph.Settings

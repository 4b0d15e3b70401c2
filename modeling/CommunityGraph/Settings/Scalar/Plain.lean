import CommunityGraph.Settings.Gap

/-! Plain scalars: words without quotes. They end at a comment, before a colon that ends a word, in
brackets also at a comma or a bracket, and outside of brackets at a line that is indented less. -/
namespace CommunityGraph.Settings.Plain

structure Found where
  text : List Char
  brokeLine : Bool
  rest : List Glyph

def flowEnds : List Char := [',', '[', ']', '\x7b', '\x7d']

def stops (inFlow : Bool) (margin : Nat) (gap : Gap) (g : Glyph) (gs : List Glyph) : Bool :=
  let afterGap := !gap.isEmpty &&
    ((!inFlow && g.column < margin) || g.char = '#' || Glyph.isDocumentMarker (g :: gs))
  afterGap || (g.char = ':' && Glyph.endsWord gs) || (inFlow && g.char ∈ flowEnds)

def looseColon (inFlow : Bool) (g : Glyph) (gs : List Glyph) : Bool :=
  inFlow && g.char = ':' && Glyph.startsWithAny ('?' :: flowEnds) gs

def scan (inFlow : Bool) (margin : Nat) (gap : Gap) (text : List Char) :
    List Glyph → Option Found
  | [] => some ⟨text.reverse, gap.breaksLine, []⟩
  | g :: gs =>
      if g.isBlank && gap.breaksLine && g.char = '\t' && g.column < margin then none
      else if g.isBlank || g.isBreak then scan inFlow margin (gap.add g) text gs
      else if looseColon inFlow g gs then none
      else if stops inFlow margin gap g gs then
        some ⟨text.reverse, gap.breaksLine, g :: gs⟩
      else scan inFlow margin .empty (g.char :: gap.behind text) gs

end CommunityGraph.Settings.Plain

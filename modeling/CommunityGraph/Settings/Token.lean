import CommunityGraph.Settings.Scalar

/-! The tokens of a document. Blocks begin and end by indentation; a key that needs no mark of its
own gets one in front of it when its colon is found. -/
namespace CommunityGraph.Settings

inductive Token where
  | version (major minor : Nat)
  | handle (name start : String)
  | documentStart
  | documentEnd
  | listStart
  | mappingStart
  | blockEnd
  | bracketOpen
  | bracketClose
  | braceOpen
  | braceClose
  | comma
  | dash
  | key
  | colon
  | alias (name : String)
  | anchor (name : String)
  | tag (handle suffix : String)
  | scalar (style : ScalarStyle) (text : List Char)
  deriving DecidableEq, Repr

end CommunityGraph.Settings

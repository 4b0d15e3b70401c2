import CommunityGraph.Settings.Node

/-! Nodes from JSON: strings are quoted scalars, and numbers and words are plain ones. Text that is
not JSON is read as far as it goes. -/
namespace CommunityGraph.Settings.Json

def isSpace (c : Char) : Bool := c = ' ' || c = '\t' || c = '\n' || c = '\r'

def skip (cs : List Char) : List Char := cs.dropWhile isSpace

def endsWord (c : Char) : Bool := isSpace c || c ∈ [',', ':', ']', '\x7d']

def escapes : List (Char × Char) :=
  [('b', '\x08'), ('f', '\x0c'), ('n', '\n'), ('r', '\r'), ('t', '\t')]

def unit? (a b c d : Char) : Option Nat := Word.inBase? 16 [a, b, c, d]

def paired (high low : Nat) : Char :=
  Char.ofNat (0x10000 + 0x400 * (high - 0xd800) + (low - 0xdc00))

def isHigh (code : Nat) : Bool := 0xd800 ≤ code && code < 0xdc00

/-- The rest of a string and what follows it; `high` is the first surrogate of a pair. Text is
collected backwards. -/
def string? (high : Option Nat) (text : List Char) : List Char → Option (List Char × List Char)
  | [] => none
  | '"' :: rest => some (text.reverse, rest)
  | '\\' :: 'u' :: a :: b :: c :: d :: rest => do
      let code ← unit? a b c d
      match high with
      | some high => string? none (paired high code :: text) rest
      | none =>
          if isHigh code then string? (some code) text rest
          else string? none (Char.ofNat code :: text) rest
  | '\\' :: c :: rest => string? none ((escapes.lookup c).getD c :: text) rest
  | c :: rest => string? none (c :: text) rest

mutual

/-- A value and what follows it. Every step reads a character or is one of two at a character. -/
def value? : Nat → List Char → Option (Node × List Char)
  | 0, _ => none
  | fuel + 1, cs =>
      match skip cs with
      | [] => none
      | '"' :: rest => (string? none [] rest).map fun (text, rest) => (.quoted text, rest)
      | '[' :: rest => items? fuel [] rest
      | '\x7b' :: rest => entries? fuel [] rest
      | c :: rest =>
          some (.plain ((c :: rest).takeWhile fun c => !endsWord c),
            (c :: rest).dropWhile fun c => !endsWord c)

def items? : Nat → List Node → List Char → Option (Node × List Char)
  | 0, _, _ => none
  | fuel + 1, items, cs =>
      match skip cs with
      | ']' :: rest => some (.list none items.reverse, rest)
      | ',' :: rest => items? fuel items rest
      | cs =>
          match value? fuel cs with
          | none => none
          | some (item, rest) => items? fuel (item :: items) rest

def entries? : Nat → List (Node × Node) → List Char → Option (Node × List Char)
  | 0, _, _ => none
  | fuel + 1, entries, cs =>
      match skip cs with
      | '\x7d' :: rest => some (.mapping none entries.reverse, rest)
      | ',' :: rest => entries? fuel entries rest
      | cs =>
          match value? fuel cs with
          | none => none
          | some (key, rest) =>
              match skip rest with
              | ':' :: rest =>
                  match value? fuel rest with
                  | none => none
                  | some (value, rest) => entries? fuel ((key, value) :: entries) rest
              | _ => none

end

def node? (cs : List Char) : Option Node := (value? (2 * cs.length + 2) cs).map Prod.fst

end CommunityGraph.Settings.Json

import CommunityGraph.Settings.Token.Scan
import CommunityGraph.Settings.Tree

/-! From tokens to the tree of a document. A missing key, value or item is an empty scalar. A text
holds at most one document. -/
namespace CommunityGraph.Settings.Grammar

abbrev Handles := List (String × String)

def usualHandles : Handles := [("!", "!"), ("!!", "tag:yaml.org,2002:")]

abbrev Anchors := List (String × Nat)

structure Input where
  tokens : List Token
  anchors : Anchors

def nextNumber (anchors : Anchors) : Nat := (anchors.map Prod.fst).eraseDups.length

structure Properties where
  anchor : Option String
  tag : Option String

def fullTag? (handles : Handles) (handle suffix : String) : Option String :=
  if handle = "" then some suffix
  else (handles.lookup handle).map fun start => start ++ suffix

def properties? (handles : Handles) : List Token → Option (Properties × List Token)
  | .anchor name :: .tag handle suffix :: rest =>
      (fullTag? handles handle suffix).map fun tag => (⟨some name, some tag⟩, rest)
  | .tag handle suffix :: .anchor name :: rest =>
      (fullTag? handles handle suffix).map fun tag => (⟨some name, some tag⟩, rest)
  | .anchor name :: rest => some (⟨some name, none⟩, rest)
  | .tag handle suffix :: rest =>
      (fullTag? handles handle suffix).map fun tag => (⟨none, some tag⟩, rest)
  | rest => some (⟨none, none⟩, rest)

abbrev Found (α : Type) := Option (α × Input)

def blockValueMissing : List Token → Bool
  | .key :: _ | .colon :: _ | .blockEnd :: _ => true
  | _ => false

def itemMissing : List Token → Bool
  | .dash :: _ | .key :: _ | .colon :: _ | .blockEnd :: _ => true
  | _ => false

def flowValueMissing (close : Token) : List Token → Bool
  | [] => false
  | token :: _ => token = .comma || token = close

mutual

/-- A value. `block` tells whether it may be a block, `level` whether it may be a list at the
indentation of its key. Every step reads a token or is one of a few at a token, so that four steps
for each token are enough. -/
def value (handles : Handles) : Nat → Bool → Bool → Input → Found Tree
  | 0, _, _, _ => none
  | fuel + 1, block, level, input =>
      match input.tokens with
      | .alias name :: rest =>
          (input.anchors.lookup name).map fun id => (.reference id, ⟨rest, input.anchors⟩)
      | tokens =>
          match properties? handles tokens with
          | none => none
          | some (⟨none, tag⟩, rest) =>
              content handles fuel block level tag false ⟨rest, input.anchors⟩
          | some (⟨some name, tag⟩, rest) =>
              let id := nextNumber input.anchors
              (content handles fuel block level tag true ⟨rest, (name, id) :: input.anchors⟩).map
                fun (tree, input) => (.anchored id tree, input)

def content (handles : Handles) : Nat → Bool → Bool → Option String → Bool → Input → Found Tree
  | 0, _, _, _, _, _ => none
  | fuel + 1, block, level, tag, anchored, input =>
      match input.tokens with
      | .scalar style text :: rest =>
          let tag := if tag = some "!" then none else tag
          some (.scalar ⟨style, tag, text⟩, ⟨rest, input.anchors⟩)
      | .bracketOpen :: rest =>
          (flowItems handles fuel true ⟨rest, input.anchors⟩).map fun (items, input) =>
            (.list tag items, input)
      | .braceOpen :: rest =>
          (flowEntries handles fuel true ⟨rest, input.anchors⟩).map fun (entries, input) =>
            (.mapping tag entries, input)
      | tokens =>
          match block, level, tokens with
          | true, _, .listStart :: rest =>
              (blockItems handles fuel ⟨rest, input.anchors⟩).map fun (items, input) =>
                (.list tag items, input)
          | true, _, .mappingStart :: rest =>
              (blockEntries handles fuel ⟨rest, input.anchors⟩).map fun (entries, input) =>
                (.mapping tag entries, input)
          | _, true, .dash :: _ =>
              (levelItems handles fuel input).map fun (items, input) => (.list tag items, input)
          | _, _, _ =>
              if anchored || tag.isSome then some (.scalar ⟨.plain, tag, []⟩, input) else none

def blockItems (handles : Handles) : Nat → Input → Found (List Tree)
  | 0, _ => none
  | fuel + 1, ⟨tokens, anchors⟩ =>
      match tokens with
      | .blockEnd :: rest => some ([], ⟨rest, anchors⟩)
      | .dash :: rest =>
          let item : Found Tree := match rest with
            | .dash :: _ | .blockEnd :: _ => some (.empty, ⟨rest, anchors⟩)
            | _ => value handles fuel true false ⟨rest, anchors⟩
          item.bind fun (item, input) =>
            (blockItems handles fuel input).map fun (items, input) => (item :: items, input)
      | _ => none

def levelItems (handles : Handles) : Nat → Input → Found (List Tree)
  | 0, _ => none
  | fuel + 1, ⟨tokens, anchors⟩ =>
      match tokens with
      | .dash :: rest =>
          let item : Found Tree :=
            if itemMissing rest then some (.empty, ⟨rest, anchors⟩)
            else value handles fuel true false ⟨rest, anchors⟩
          item.bind fun (item, input) =>
            (levelItems handles fuel input).map fun (items, input) => (item :: items, input)
      | _ => some ([], ⟨tokens, anchors⟩)

def blockEntries (handles : Handles) : Nat → Input → Found (List (Tree × Tree))
  | 0, _ => none
  | fuel + 1, ⟨tokens, anchors⟩ =>
      match tokens with
      | .blockEnd :: rest => some ([], ⟨rest, anchors⟩)
      | .key :: rest =>
          (blockValue handles fuel ⟨rest, anchors⟩).bind fun (key, input) =>
            let entry : Found Tree := match input.tokens with
              | .colon :: rest => blockValue handles fuel ⟨rest, input.anchors⟩
              | _ => some (.empty, input)
            entry.bind fun (entry, input) =>
              (blockEntries handles fuel input).map fun (entries, input) =>
                ((key, entry) :: entries, input)
      | _ => none

def blockValue (handles : Handles) : Nat → Input → Found Tree
  | 0, _ => none
  | fuel + 1, input =>
      if blockValueMissing input.tokens then some (.empty, input)
      else value handles fuel true true input

def flowItems (handles : Handles) : Nat → Bool → Input → Found (List Tree)
  | 0, _, _ => none
  | fuel + 1, first, ⟨tokens, anchors⟩ =>
      match first, tokens with
      | _, .bracketClose :: rest => some ([], ⟨rest, anchors⟩)
      | false, .comma :: .bracketClose :: rest => some ([], ⟨rest, anchors⟩)
      | false, .comma :: rest => flowItem handles fuel ⟨rest, anchors⟩
      | true, rest => flowItem handles fuel ⟨rest, anchors⟩
      | false, _ => none

def flowItem (handles : Handles) : Nat → Input → Found (List Tree)
  | 0, _ => none
  | fuel + 1, ⟨tokens, anchors⟩ =>
      let item : Found Tree := match tokens with
        | .key :: rest => flowPair handles fuel ⟨rest, anchors⟩
        | _ => value handles fuel false false ⟨tokens, anchors⟩
      item.bind fun (item, input) =>
        (flowItems handles fuel false input).map fun (items, input) => (item :: items, input)

def flowPair (handles : Handles) : Nat → Input → Found Tree
  | 0, _ => none
  | fuel + 1, ⟨tokens, anchors⟩ =>
      let key : Found Tree := match tokens with
        | .colon :: rest | .comma :: rest | .bracketClose :: rest => some (.empty, ⟨rest, anchors⟩)
        | _ => value handles fuel false false ⟨tokens, anchors⟩
      key.bind fun (key, input) =>
        (flowValue handles fuel .bracketClose input).map fun (entry, input) =>
          (.mapping none [(key, entry)], input)

def flowValue (handles : Handles) : Nat → Token → Input → Found Tree
  | 0, _, _ => none
  | fuel + 1, close, ⟨tokens, anchors⟩ =>
      match tokens with
      | .colon :: rest =>
          if flowValueMissing close rest then some (.empty, ⟨rest, anchors⟩)
          else value handles fuel false false ⟨rest, anchors⟩
      | _ => some (.empty, ⟨tokens, anchors⟩)

def flowEntries (handles : Handles) : Nat → Bool → Input → Found (List (Tree × Tree))
  | 0, _, _ => none
  | fuel + 1, first, ⟨tokens, anchors⟩ =>
      match first, tokens with
      | _, .braceClose :: rest => some ([], ⟨rest, anchors⟩)
      | false, .comma :: .braceClose :: rest => some ([], ⟨rest, anchors⟩)
      | false, .comma :: rest => flowEntry handles fuel ⟨rest, anchors⟩
      | true, rest => flowEntry handles fuel ⟨rest, anchors⟩
      | false, _ => none

def flowEntry (handles : Handles) : Nat → Input → Found (List (Tree × Tree))
  | 0, _ => none
  | fuel + 1, ⟨tokens, anchors⟩ =>
      let entry : Found (Tree × Tree) := match tokens with
        | .key :: rest =>
            let key : Found Tree :=
              if rest.head? = some .colon || flowValueMissing .braceClose rest then
                some (.empty, ⟨rest, anchors⟩)
              else value handles fuel false false ⟨rest, anchors⟩
            key.bind fun (key, input) =>
              (flowValue handles fuel .braceClose input).map fun (entry, input) =>
                ((key, entry), input)
        | _ =>
            (value handles fuel false false ⟨tokens, anchors⟩).map fun (key, input) =>
              ((key, .empty), input)
      entry.bind fun (entry, input) =>
        (flowEntries handles fuel false input).map fun (entries, input) =>
          (entry :: entries, input)

end

structure Directives where
  versioned : Bool
  handles : Handles

def directives? (d : Directives) : List Token → Option (Directives × List Token)
  | .version major minor :: rest =>
      if d.versioned || major ≠ 1 || (minor ≠ 1 && minor ≠ 2) then none
      else directives? { d with versioned := true } rest
  | .handle name start :: rest =>
      if (d.handles.lookup name).isSome then none
      else directives? { d with handles := d.handles ++ [(name, start)] } rest
  | .documentStart :: rest => some (d, rest)
  | _ => none

def isMarked : List Token → Bool
  | .version .. :: _ | .handle .. :: _ | .documentStart :: _ => true
  | _ => false

def isHollow (tokens : List Token) : Bool :=
  tokens.isEmpty || tokens.head? = some .documentEnd || isMarked tokens

def root? (tokens : List Token) : Found Tree :=
  let fuel := 4 * tokens.length + 4
  if isMarked tokens then
    (directives? ⟨false, []⟩ tokens).bind fun (d, rest) =>
      if isHollow rest then some (.empty, ⟨rest, []⟩)
      else value (d.handles ++ usualHandles) fuel true false ⟨rest, []⟩
  else value usualHandles fuel true false ⟨tokens, []⟩

def document? (tokens : List Token) : Option Tree :=
  (root? tokens).bind fun (tree, input) =>
    if input.tokens.all fun token => token = .documentEnd then some tree else none

end Grammar

structure Document where
  root : Node
  limit : Nat

def Document.ofText? (text : List Char) : Option Document :=
  match tokens? text with
  | none => none
  | some [] => some ⟨.absent, 0⟩
  | some tokens =>
      (Grammar.document? tokens).map fun tree => ⟨tree.node, 100 * tree.size⟩

end CommunityGraph.Settings

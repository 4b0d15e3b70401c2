import CommunityGraph.Codec.Packing

/-! Reading a packed list one target at a time. Blocks are unpacked when they are reached, and the
stored differences are summed up again. -/
namespace CommunityGraph

structure Cursor where
  bytes : Array UInt8
  position : Nat
  ahead : Nat
  block : List UInt64
  last : UInt64
  deriving Repr

namespace Cursor

def make (bytes : Array UInt8) (position degree : Nat) : Cursor := ⟨bytes, position, degree, [], 0⟩

def empty : Cursor := make #[] 0 0

def remaining (c : Cursor) : Nat := c.ahead + c.block.length

def sizeHint (c : Cursor) : Nat × Option Nat := (c.remaining, some c.remaining)

/-- The next target. The outer `none` says that the bytes end inside a block. -/
def next (c : Cursor) : Option (Option UInt64 × Cursor) :=
  match c.block with
  | d :: rest => some (some (c.last + d), { c with block := rest, last := c.last + d })
  | [] =>
      if c.ahead = 0 then some (none, c)
      else
        let count := min c.ahead Packing.blockSize
        match Packing.unpackBlock c.bytes c.position count with
        | none => none
        | some (block, stop) =>
            let c := { c with position := stop, ahead := c.ahead - count }
            match block with
            | [] => some (none, c)
            | d :: rest => some (some (c.last + d), { c with block := rest, last := c.last + d })

def take : Nat → Cursor → Option (List UInt64 × Cursor)
  | 0, c => some ([], c)
  | count + 1, c =>
      match c.next with
      | none => none
      | some (none, c) => some ([], c)
      | some (some target, c) =>
          match take count c with
          | none => none
          | some (targets, c) => some (target :: targets, c)

def toList? (c : Cursor) : Option (List UInt64) := (take c.remaining c).map Prod.fst

end Cursor
end CommunityGraph

/-! Estimates of memory use, from a least to a greatest number of bytes. -/
namespace CommunityGraph

structure MemoryRange where
  min : Nat
  max : Nat
  deriving DecidableEq, Repr

namespace MemoryRange

def exactly (bytes : Nat) : MemoryRange := ⟨bytes, bytes⟩

def between (a b : Nat) : MemoryRange := ⟨Min.min a b, Max.max a b⟩

def saturate (bytes : Nat) : Nat := Min.min bytes (UInt64.size - 1)

def add (a b : MemoryRange) : MemoryRange := ⟨saturate (a.min + b.min), saturate (a.max + b.max)⟩

def text (r : MemoryRange) : String :=
  if r.min = r.max then toString r.min ++ " Bytes"
  else "[" ++ toString r.min ++ " Bytes ... " ++ toString r.max ++ " Bytes]"

end MemoryRange
end CommunityGraph

/-! Where a list starts: a page and an offset on it, in one 64-bit word, the page above bit 32. -/
namespace CommunityGraph

structure Address where
  page : Nat
  offset : Nat
  deriving DecidableEq, Repr, Inhabited

namespace Address

def toWord (a : Address) : UInt64 := (UInt64.ofNat a.page <<< 32) ||| UInt64.ofNat a.offset

def ofWord (word : UInt64) : Address := ⟨(word >>> 32).toNat, (word &&& 0xffffffff).toNat⟩

end Address
end CommunityGraph

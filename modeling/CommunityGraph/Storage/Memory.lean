/-! Limits of memory, in bytes. -/
namespace CommunityGraph.Memory

def maxRequest : Nat := 9223372036854775807

/-- The most that can be had at once: addresses have 47 bits. -/
def maxBlock : Nat := 0x800000000000

def canAsk (count elementBytes : Nat) : Bool := count * elementBytes ≤ maxRequest

end CommunityGraph.Memory

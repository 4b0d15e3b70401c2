import CommunityGraph.Error
import CommunityGraph.Storage.Address
import CommunityGraph.Storage.Memory

/-! Bump allocation on pages. Every allocator fills a page of its own; a request that does not fit
starts another page, and a request longer than a page gets a page of just its length. -/
namespace CommunityGraph

structure Arena (α : Type) where
  pageSize : Nat
  elementBytes : Nat
  pages : Array (Array α)
  deriving Repr

structure Allocator where
  page : Option Nat
  capacity : Nat
  deriving DecidableEq, Repr

namespace Allocator

def empty : Allocator := ⟨none, 0⟩

def freeze (_ : Allocator) : Allocator := empty

end Allocator

namespace Arena
variable {α : Type}

def make (pageSize elementBytes : Nat) : Arena α := ⟨max pageSize 1, elementBytes, #[]⟩

def used (arena : Arena α) (allocator : Allocator) : Nat :=
  match allocator.page with
  | none => 0
  | some page => (arena.pages[page]?.map Array.size).getD 0

def fits (arena : Arena α) (allocator : Allocator) (length : Nat) : Bool :=
  allocator.page.isSome && length ≤ allocator.capacity - arena.used allocator

/-- A fresh page that can hold `length` elements; the old page is given up even if this fails. -/
def openPage (arena : Arena α) (length : Nat) :
    Except EngineError Allocator × Arena α :=
  let capacity := max arena.pageSize length
  if Memory.maxBlock < capacity * arena.elementBytes then
    (.error (.allocationFailed (capacity * arena.elementBytes % UInt64.size)), arena)
  else (.ok ⟨some arena.pages.size, capacity⟩, { arena with pages := arena.pages.push #[] })

def extend (arena : Arena α) (page length : Nat) (zero : α) : Arena α :=
  { arena with pages := arena.pages.modify page fun p => p ++ Array.replicate length zero }

def allocate (arena : Arena α) (allocator : Allocator) (length : Nat) (zero : α) :
    Except EngineError Address × Allocator × Arena α :=
  let (started, arena) :=
    if arena.fits allocator length then (.ok allocator, arena) else arena.openPage length
  match started with
  | .error e => (.error e, .empty, arena)
  | .ok allocator =>
      let page := allocator.page.getD 0
      let address : Address := ⟨page, arena.used allocator⟩
      (.ok address, allocator, arena.extend page length zero)

def writeFrom (page : Array α) (offset : Nat) : List α → Array α
  | [] => page
  | v :: vs => writeFrom (page.setIfInBounds offset v) (offset + 1) vs

def write (arena : Arena α) (address : Address) (values : List α) : Arena α :=
  { arena with
    pages := arena.pages.modify address.page fun page => writeFrom page address.offset values }

def slice? (pages : Array (Array α)) (address : Address) (length : Nat) : Option (List α) :=
  match pages[address.page]? with
  | none => none
  | some page =>
      if address.offset + length ≤ page.size then
        some (page.extract address.offset (address.offset + length)).toList
      else none

end Arena
end CommunityGraph

/-! Arrays split into pages of 16384 elements; only the last page may be shorter. An access outside
the array has no result. -/
namespace CommunityGraph

structure PagedArray (α : Type) where
  size : Nat
  pages : Array (Array α)
  deriving Repr

namespace PagedArray
variable {α : Type}

def pageShift : Nat := 14

def pageSize : Nat := 1 <<< pageShift

def pageIndex (index : Nat) : Nat := index >>> pageShift

def indexInPage (index : Nat) : Nat := index &&& (pageSize - 1)

def pageSizes (size : Nat) : List Nat :=
  List.replicate (pageIndex size) pageSize ++
    if 0 < indexInPage size then [indexInPage size] else []

def fillFrom (f : Nat → α) : Nat → List Nat → List (Array α)
  | _, [] => []
  | base, length :: lengths =>
      (Array.ofFn fun offset : Fin length => f (base + offset)) :: fillFrom f (base + length) lengths

def ofFn (size : Nat) (f : Nat → α) : PagedArray α where
  size := size
  pages := (fillFrom f 0 (pageSizes size)).toArray

def replicate (size : Nat) (value : α) : PagedArray α where
  size := size
  pages := ((pageSizes size).map fun length => Array.replicate length value).toArray

def get? (a : PagedArray α) (index : Nat) : Option α :=
  a.pages[pageIndex index]?.bind fun page => page[indexInPage index]?

def set? (a : PagedArray α) (index : Nat) (value : α) : Option (PagedArray α) :=
  match a.get? index with
  | none => none
  | some _ =>
      some { a with
        pages := a.pages.modify (pageIndex index) fun page =>
          page.setIfInBounds (indexInPage index) value }

def setAll (a : PagedArray α) (f : Nat → α) : PagedArray α :=
  { a with
    pages := a.pages.mapIdx fun page values =>
      let base := page <<< pageShift
      values.mapIdx fun offset _ => f (base + offset) }

def generate [Inhabited α] (size : Nat) (f : Nat → α) : PagedArray α := (replicate size default).setAll f

def isEmpty (a : PagedArray α) : Bool := a.size = 0

def toList (a : PagedArray α) : List α := a.pages.toList.flatMap Array.toList

/-- Replaces the element when it equals `current`. Either way the element found is answered:
`inr` when it was replaced, `inl` when it was kept. -/
def replaceIf? [DecidableEq α] (a : PagedArray α) (index : Nat) (current new : α) :
    Option ((α ⊕ α) × PagedArray α) :=
  match a.get? index with
  | none => none
  | some found =>
      if found = current then (a.set? index new).map fun a => (.inr found, a)
      else some (.inl found, a)

end PagedArray
end CommunityGraph

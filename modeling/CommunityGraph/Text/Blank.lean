/-! Words of a line: runs of characters between white space, as Unicode defines it. -/
namespace CommunityGraph.Text

def isBlank (c : Char) : Bool :=
  let n := c.toNat
  (0x09 ≤ n && n ≤ 0x0d) || n = 0x20 || n = 0x85 || n = 0xa0 || n = 0x1680 ||
    (0x2000 ≤ n && n ≤ 0x200a) || n = 0x2028 || n = 0x2029 || n = 0x202f || n = 0x205f ||
    n = 0x3000

def notBlank (c : Char) : Bool := !isBlank c

theorem length_dropWhile_le {α : Type} (p : α → Bool) (xs : List α) :
    (xs.dropWhile p).length ≤ xs.length := (List.dropWhile_sublist p).length_le

def words (cs : List Char) : List (List Char) :=
  match _found : cs.dropWhile isBlank with
  | [] => []
  | c :: rest => (c :: rest.takeWhile notBlank) :: words (rest.dropWhile notBlank)
termination_by cs.length
decreasing_by
  have shorter := length_dropWhile_le isBlank cs
  have tail := length_dropWhile_le notBlank rest
  rw [_found, List.length_cons] at shorter
  omega

def pieces {α : Type} [DecidableEq α] (separator : α) : List α → List (List α)
  | [] => [[]]
  | x :: xs =>
      match pieces separator xs with
      | [] => [[x]]
      | piece :: rest => if x = separator then [] :: piece :: rest else (x :: piece) :: rest

def utf8? (bytes : List UInt8) : Option (List Char) :=
  (String.fromUTF8? ⟨bytes.toArray⟩).map String.toList

end CommunityGraph.Text

import Mathlib
import CommunityGraph.Decimal.Literal

/-! Whole numbers read back as they are printed, when they are in the range of the type that is read. -/
namespace CommunityGraph.Literal

section Digits
variable {n : Nat} {c : Char}

theorem digitsDigit (member : c ∈ Nat.toDigits 10 n) : c.isDigit = true :=
  Nat.isDigit_of_mem_toDigits (by decide) (by decide) member

theorem naturalDigits (n : Nat) : natural? (Nat.toDigits 10 n) = some n := by
  have digits : (Nat.toDigits 10 n).all Char.isDigit = true :=
    List.all_eq_true.mpr fun _ => digitsDigit
  have nonempty : (Nat.toDigits 10 n).isEmpty = false :=
    List.isEmpty_eq_false_iff.mpr Nat.toDigits_ne_nil
  have value := Nat.ofDigitChars_ten_toDigits (n := n)
  rw [Nat.ofDigitChars_eq_foldl] at value
  rw [natural?, digits, nonempty]
  exact congrArg some value

theorem digitsUnsigned (n : Nat) :
    ∃ c rest, Nat.toDigits 10 n = c :: rest ∧ c ≠ '+' ∧ c ≠ '-' := by
  obtain ⟨c, rest, first⟩ := List.exists_cons_of_ne_nil (Nat.toDigits_ne_nil (n := n) (b := 10))
  have digit : c.isDigit = true := digitsDigit (first ▸ List.mem_cons_self)
  refine ⟨c, rest, first, ?_, ?_⟩
  · rintro rfl
    exact absurd digit (by decide)
  · rintro rfl
    exact absurd digit (by decide)

end Digits

section Printed

def printed (z : Int) : List Char := (toString z).toList

theorem printedNatural (n : Nat) : printed n = Nat.toDigits 10 n := by
  show (Nat.repr n).toList = _
  exact Nat.toList_repr

theorem printedNegative (n : Nat) : printed (Int.negSucc n) = '-' :: Nat.toDigits 10 (n + 1) := by
  show ("-" ++ Nat.repr (n + 1)).toList = _
  rw [String.toList_append, Nat.toList_repr]
  rfl

theorem wordPrinted (z : Int) :
    word? (printed z) = if 0 ≤ z ∧ z < UInt64.size then some z.toNat else none := by
  cases z with
  | ofNat n =>
    obtain ⟨c, rest, digits, plus, -⟩ := digitsUnsigned n
    have value : natural? (c :: rest) = some n := digits ▸ naturalDigits n
    rw [Int.ofNat_eq_natCast, printedNatural, digits]
    simp [word?, plus, value]
  | negSucc n =>
    rw [printedNegative, if_neg (by omega)]
    simp [word?, natural?]

theorem signedPrinted (z : Int) :
    signed? (printed z) =
      if Int64.minValue.toInt ≤ z ∧ z ≤ Int64.maxValue.toInt then some z else none := by
  cases z with
  | ofNat n =>
    obtain ⟨c, rest, digits, plus, minus⟩ := digitsUnsigned n
    have value : natural? (c :: rest) = some n := digits ▸ naturalDigits n
    rw [Int.ofNat_eq_natCast, printedNatural, digits]
    simp [signed?, plus, minus, value]
  | negSucc n =>
    rw [printedNegative]
    simp only [signed?, naturalDigits]
    change (some (Int.negSucc n)).bind _ = _
    rw [Option.bind_some]

theorem wordReads (n : UInt64) : word? (printed n.toNat) = some n.toNat := by
  rw [wordPrinted, if_pos ⟨Int.natCast_nonneg _, Int.ofNat_lt.mpr n.toNat_lt⟩, Int.toNat_natCast]

theorem signedReads (n : Int64) : signed? (printed n.toInt) = some n.toInt := by
  rw [signedPrinted, if_pos ⟨n.minValue_le_toInt, n.toInt_le⟩]

end Printed

end CommunityGraph.Literal

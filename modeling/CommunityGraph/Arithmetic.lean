/-! Whole-number arithmetic shared by batches, blocks and pages: quotients rounded up, bit lengths,
and fixed-length digit lists. -/
namespace CommunityGraph

def ceilDiv? (dividend divisor : Nat) : Option Nat :=
  if divisor = 0 then none else some ((dividend + divisor - 1) / divisor)

def ceilDiv (dividend divisor : Nat) : Nat := (dividend + divisor - 1) / divisor

def bitLength (value : Nat) : Nat := if value = 0 then 0 else value.log2 + 1

def digits (base : Nat) : Nat → Nat → List Nat
  | 0, _ => []
  | count + 1, value => value % base :: digits base count (value / base)

def ofDigits (base : Nat) : List Nat → Nat
  | [] => 0
  | d :: ds => d + base * ofDigits base ds

@[simp] theorem length_digits (base count value : Nat) :
    (digits base count value).length = count := by
  induction count generalizing value with
  | zero => rfl
  | succ count ih => simp [digits, ih]

theorem digits_ofDigits {base : Nat} {ds : List Nat} (bounded : ∀ d ∈ ds, d < base) :
    digits base ds.length (ofDigits base ds) = ds := by
  induction ds with
  | nil => rfl
  | cons d ds ih =>
    have small : d < base := bounded d (by simp)
    have tail := ih fun x hx => bounded x (by simp [hx])
    have quotient : (d + base * ofDigits base ds) / base = ofDigits base ds := by
      rw [Nat.add_mul_div_left _ _ (by omega), Nat.div_eq_of_lt small, Nat.zero_add]
    simp [digits, ofDigits, quotient, tail, Nat.mod_eq_of_lt small]

theorem lt_two_pow_bitLength (value : Nat) : value < Nat.pow 2 (bitLength value) := by
  unfold bitLength
  split
  · subst value; decide
  · exact Nat.lt_log2_self

theorem leMulCeilDiv (dividend : Nat) {divisor : Nat} (positive : 0 < divisor) :
    dividend ≤ divisor * ceilDiv dividend divisor := by
  have split := Nat.div_add_mod (dividend + divisor - 1) divisor
  have rest := Nat.mod_lt (dividend + divisor - 1) positive
  simp only [ceilDiv]
  omega

theorem ltCeilDiv {divisor : Nat} (positive : 0 < divisor) (dividend index : Nat) :
    index < ceilDiv dividend divisor ↔ index * divisor < dividend := by
  rw [ceilDiv, Nat.lt_iff_add_one_le, Nat.le_div_iff_mul_le positive, Nat.succ_mul]
  omega

theorem ceilDivLe {dividend divisor count : Nat} (positive : 0 < divisor)
    (enough : dividend ≤ count * divisor) : ceilDiv dividend divisor ≤ count := by
  apply Nat.not_lt.mp
  intro more
  exact Nat.not_lt.mpr enough ((ltCeilDiv positive dividend count).mp more)

end CommunityGraph

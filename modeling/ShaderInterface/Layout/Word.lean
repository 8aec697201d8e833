/-!
# Word arithmetic

Sizes and byte offsets are natural numbers below `2 ^ 32`. The checked operations refuse a result
outside that range, the saturating ones stop at its last value.
-/

namespace ShaderInterface

/-- The reasons why a checked operation has no result. -/
inductive ArithmeticError where
  /-- The product does not fit a word. -/
  | productOverflow
  /-- The sum does not fit a word. -/
  | sumOverflow
  /-- The difference would be negative. -/
  | differenceOverflow
  /-- The divisor of a quotient is zero. -/
  | zeroDivisor
  /-- The divisor of a remainder is zero. -/
  | zeroModulus
deriving DecidableEq, Repr

/-- The sentence that reports a failed operation. -/
def ArithmeticError.message : ArithmeticError → String
  | .productOverflow => "attempt to multiply with overflow"
  | .sumOverflow => "attempt to add with overflow"
  | .differenceOverflow => "attempt to subtract with overflow"
  | .zeroDivisor => "attempt to divide by zero"
  | .zeroModulus => "attempt to calculate the remainder with a divisor of zero"

namespace Word

/-- The largest word. -/
def last : Nat := 0xFFFFFFFF

/-- Product of two words, if it is a word. -/
def multiply (left right : Nat) : Except ArithmeticError Nat :=
  if left * right ≤ last then .ok (left * right) else .error .productOverflow

/-- Sum of two words, if it is a word. -/
def add (left right : Nat) : Except ArithmeticError Nat :=
  if left + right ≤ last then .ok (left + right) else .error .sumOverflow

/-- Difference of two words, if it is not negative. -/
def subtract (left right : Nat) : Except ArithmeticError Nat :=
  if right ≤ left then .ok (left - right) else .error .differenceOverflow

/-- Quotient of two words, unless the divisor is zero. -/
def divide (dividend divisor : Nat) : Except ArithmeticError Nat :=
  if divisor = 0 then .error .zeroDivisor else .ok (dividend / divisor)

/-- Remainder of two words, unless the divisor is zero. -/
def remainder (dividend divisor : Nat) : Except ArithmeticError Nat :=
  if divisor = 0 then .error .zeroModulus else .ok (dividend % divisor)

/-- Sum of two words, cut off at the largest word. -/
def saturatingAdd (left right : Nat) : Nat := min (left + right) last

/-- Product of two words, cut off at the largest word. -/
def saturatingMultiply (left right : Nat) : Nat := min (left * right) last

theorem multiply_eq_ok_iff {left right product : Nat} :
    multiply left right = .ok product ↔ left * right ≤ last ∧ left * right = product := by
  unfold multiply
  split <;> simp <;> omega

theorem multiply_eq_error_iff {left right : Nat} {error : ArithmeticError} :
    multiply left right = .error error ↔ last < left * right ∧ error = .productOverflow := by
  by_cases fits : left * right ≤ last
  · have inRange : ¬ last < left * right := Nat.not_lt.mpr fits
    simp [multiply, fits, inRange]
  · have overflow : last < left * right := Nat.not_le.mp fits
    rw [multiply, if_neg fits, Except.error.injEq, eq_comm]
    exact ⟨fun cause => ⟨overflow, cause⟩, And.right⟩

theorem add_eq_ok_iff {left right sum : Nat} :
    add left right = .ok sum ↔ left + right ≤ last ∧ left + right = sum := by
  unfold add
  split <;> simp <;> omega

theorem subtract_eq_ok_iff {left right difference : Nat} :
    subtract left right = .ok difference ↔ right ≤ left ∧ left - right = difference := by
  unfold subtract
  split <;> simp <;> omega

theorem divide_eq_ok_iff {dividend divisor quotient : Nat} :
    divide dividend divisor = .ok quotient ↔ divisor ≠ 0 ∧ dividend / divisor = quotient := by
  unfold divide
  split <;> simp_all

theorem remainder_eq_ok_iff {dividend divisor rest : Nat} :
    remainder dividend divisor = .ok rest ↔ divisor ≠ 0 ∧ dividend % divisor = rest := by
  unfold remainder
  split <;> simp_all

theorem saturatingAdd_of_le {left right : Nat} (fits : left + right ≤ last) :
    saturatingAdd left right = left + right :=
  Nat.min_eq_left fits

end Word
end ShaderInterface

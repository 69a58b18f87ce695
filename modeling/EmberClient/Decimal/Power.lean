/-!
# Powers and ranges

Powers of two and ten, and the whole numbers that fit a word of so many bits.
-/

namespace EmberClient.Decimal

def twoTo (n : Nat) : Nat := Nat.pow 2 n

def tenTo (n : Nat) : Nat := Nat.pow 10 n

/-- The number fits a word of so many bits, one of them for the sign. -/
def fitsSigned (bits : Nat) (n : Int) : Bool :=
  decide (-(twoTo (bits - 1) : Int) ≤ n) && decide (n < twoTo (bits - 1))

/-- The number fits a word of so many bits without a sign. -/
def fitsUnsigned (bits : Nat) (n : Int) : Bool :=
  decide (0 ≤ n) && decide (n < twoTo bits)

theorem fitsSigned_iff {bits : Nat} {n : Int} :
    fitsSigned bits n = true ↔ -(twoTo (bits - 1) : Int) ≤ n ∧ n < twoTo (bits - 1) := by
  rw [fitsSigned, Bool.and_eq_true, decide_eq_true_eq, decide_eq_true_eq]

theorem fitsUnsigned_iff {bits : Nat} {n : Int} :
    fitsUnsigned bits n = true ↔ 0 ≤ n ∧ n < twoTo bits := by
  rw [fitsUnsigned, Bool.and_eq_true, decide_eq_true_eq, decide_eq_true_eq]

end EmberClient.Decimal

import CInterop.Failure

/-!
# Machine words

Sizes, offsets and addresses are 64-bit words. They are held as natural numbers and integers, so
that bounds are compared without wrap-around. Sums, products, differences and quotients are formed
only where they are words (`Word.sum` and the like), and no word is shifted by all of its bits; the
other functions say how a word reads as a two's-complement number.
-/

namespace CInterop.Word

/-- The number of distinct words. -/
def modulus : Nat := 0x10000000000000000

/-- The sum of two words. A sum that is no word is an overflow. -/
def sum (m n : Nat) : Except Failure Nat :=
  if m + n < modulus then pure (m + n) else throw (.overflow "add")

/-- The product of two words. A product that is no word is an overflow. -/
def product (m n : Nat) : Except Failure Nat :=
  if m * n < modulus then pure (m * n) else throw (.overflow "multiply")

/-- The difference of two words. Nothing is taken from less. -/
def difference (m n : Nat) : Except Failure Nat :=
  if n ≤ m then pure (m - n) else throw (.overflow "subtract")

/-- The quotient of two words, rounded down. Nothing is divided by zero. -/
def quotient (m n : Nat) : Except Failure Nat :=
  if n = 0 then throw (.overflow "divide") else pure (m / n)

/-- A distance to shift a word by, in some direction. No word is shifted by all of its bits. -/
def shift (direction : String) (distance : Nat) : Except Failure Nat :=
  if distance < 64 then pure distance else throw (.overflow s!"shift {direction}")

/-- The largest number a signed word holds. -/
def maxSigned : Int := 0x7FFFFFFFFFFFFFFF

/-- The least number a signed word holds. -/
def minSigned : Int := -0x8000000000000000

/-- Whether a number is the reading of some signed word. -/
def fitsSigned (i : Int) : Bool := minSigned ≤ i && i ≤ maxSigned

/-- A word read as a two's-complement number. -/
def signed (n : Nat) : Int := if n ≤ maxSigned then n else n - modulus

/-- A result that a signed word holds, or nothing when it overflows. -/
def checked (i : Int) : Option Int := if fitsSigned i then some i else none

theorem modulus_pos : 0 < modulus := by decide

theorem sum_of_lt {m n : Nat} (small : m + n < modulus) : sum m n = .ok (m + n) := if_pos small

theorem sum_of_le {m n : Nat} (large : modulus ≤ m + n) : sum m n = .error (.overflow "add") :=
  if_neg (Nat.not_lt.mpr large)

theorem product_of_lt {m n : Nat} (small : m * n < modulus) : product m n = .ok (m * n) :=
  if_pos small

theorem product_of_le {m n : Nat} (large : modulus ≤ m * n) :
    product m n = .error (.overflow "multiply") := if_neg (Nat.not_lt.mpr large)

theorem product_eq_ok_iff {m n result : Nat} :
    product m n = .ok result ↔ m * n < modulus ∧ result = m * n := by
  rcases Nat.lt_or_ge (m * n) modulus with small | large
  · rw [product_of_lt small, Except.ok.injEq, eq_comm]
    exact (and_iff_right small).symm
  · rw [product_of_le large]
    exact iff_of_false nofun fun ⟨small, _⟩ => Nat.not_lt.mpr large small

theorem shift_of_lt {distance : Nat} (small : distance < 64) (direction : String) :
    shift direction distance = .ok distance := if_pos small

theorem lt_of_shift_eq_ok {direction : String} {distance result : Nat}
    (shifted : shift direction distance = .ok result) : distance < 64 := by
  unfold shift at shifted
  split at shifted
  · assumption
  · cases shifted

theorem checked_eq_some_iff {i j : Int} : checked i = some j ↔ fitsSigned i = true ∧ i = j := by
  unfold checked
  by_cases fits : fitsSigned i <;> simp [fits]

end CInterop.Word

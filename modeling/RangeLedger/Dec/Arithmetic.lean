import RangeLedger.MathError
import RangeLedger.Number.Rounding

/-!
# Arithmetic of decimals

Sums and differences are exact, and fail when they leave the range. A product or a quotient is
the exact rational one, rounded at the eighteenth fraction digit; it fails with `overflow` when
the product of the raw magnitudes does not fit an unsigned word of 256 bits, or when the result
leaves the range. A square root is rounded down.
-/

namespace RangeLedger.Dec

/-- The decimal with a given raw integer, or `overflow`. -/
def ofRaw (n : Int) : Except MathError Dec :=
  match ofRaw? n with
  | some a => .ok a
  | none => .error .overflow

/-- The exact sum. -/
def add (a b : Dec) : Except MathError Dec := ofRaw (a.raw + b.raw)

/-- The exact difference. -/
def sub (a b : Dec) : Except MathError Dec := ofRaw (a.raw - b.raw)

/-- The product, rounded at the last digit. -/
def mulWith (mode : Rounding) (a b : Dec) : Except MathError Dec :=
  if a.raw.natAbs * b.raw.natAbs < wordSize then
    ofRaw (mode.signedQuotient (a.raw * b.raw) scale)
  else .error .overflow

/-- The product, rounded to the nearest decimal. -/
def mul (a b : Dec) : Except MathError Dec := a.mulWith .halfEven b

/-- The quotient, rounded at the last digit. -/
def quoWith (mode : Rounding) (a b : Dec) : Except MathError Dec :=
  if b.raw = 0 then .error .divisionByZero
  else if a.raw.natAbs * scale < wordSize then
    ofRaw (mode.signedQuotient (a.raw * scale) b.raw)
  else .error .overflow

/-- The quotient, rounded to the nearest decimal. -/
def quo (a b : Dec) : Except MathError Dec := a.quoWith .halfEven b

/-- The square root, rounded down. -/
def sqrt (a : Dec) : Except MathError Dec :=
  if a.raw < 0 then .error (.negativeSqrt a)
  else if a.raw.natAbs * scale < wordSize then ofRaw (Nat.sqrt (a.raw.natAbs * scale))
  else .error .overflow

/-- The integer part of a decimal that is not negative, as a number of token units. -/
def truncate (a : Dec) : Except MathError Amount :=
  if a.raw < 0 then .error (.negativeAmount a)
  else
    match Bounded.ofInt? (a.raw / scale) with
    | some n => .ok n
    | none => .error .overflow

/-! ### Arithmetic modulo the word

These operations never fail; they agree with the exact ones wherever the exact result is in
range. -/

/-- The sum modulo the word. -/
def wrapAdd (a b : Dec) : Dec := wrap (a.raw + b.raw)

/-- The difference modulo the word. -/
def wrapSub (a b : Dec) : Dec := wrap (a.raw - b.raw)

/-- The negative modulo the word; only the least decimal has none in range. -/
def neg (a : Dec) : Dec := wrap (-a.raw)

/-- The magnitude modulo the word; only that of the least decimal is out of range. -/
def abs (a : Dec) : Dec := wrap a.raw.natAbs

/-! ### Success and failure -/

/-- A checked result is the decimal with that raw value. -/
theorem ofRaw_eq_ok_iff {n : Int} {a : Dec} : ofRaw n = .ok a ↔ a.raw = n := by
  unfold ofRaw
  rw [← ofRaw?_eq_some_iff]
  cases ofRaw? n <;> simp

/-- A checked result fails by overflow alone, when it is out of range. -/
theorem ofRaw_eq_error_iff {n : Int} {e : MathError} :
    ofRaw n = .error e ↔ e = .overflow ∧ (n < -limit ∨ limit ≤ n) := by
  unfold ofRaw
  rw [← ofRaw?_eq_none_iff]
  cases ofRaw? n <;> simp [eq_comm]

/-- A sum that is answered is exact. -/
theorem add_eq_ok_iff {a b c : Dec} : a.add b = .ok c ↔ c.raw = a.raw + b.raw := ofRaw_eq_ok_iff

/-- A difference that is answered is exact. -/
theorem sub_eq_ok_iff {a b c : Dec} : a.sub b = .ok c ↔ c.raw = a.raw - b.raw := ofRaw_eq_ok_iff

/-- Every decimal but the least has a negative. -/
theorem raw_neg {a : Dec} (h : -limit < a.raw) : a.neg.raw = -a.raw :=
  raw_wrap (by have := a.lt_limit; omega) (by omega)

end RangeLedger.Dec

import GatewayEdge.Foundation.Text
import Mathlib.Data.Rat.Defs
import Mathlib.Algebra.Order.Group.Unbundled.Abs
import Mathlib.Algebra.Order.Ring.Rat

/-!
# F64 — floating-point numbers

A number is a rational, an infinity or NaN.  Comparisons follow the primitive ones, so every comparison with
NaN is false.  What is read with `parse::<f64>` is kept exact; the arithmetic rounds each result to the
nearest double, of two that are equally near to the one with the even mantissa.  The two zeros are one.
-/

namespace GatewayEdge
namespace Foundation

inductive F64
  | nan
  | inf (negative : Bool)
  | num (q : ℚ)
  deriving DecidableEq, Repr

namespace F64

/-- The primitive `<`. -/
def lt : F64 → F64 → Bool
  | .num a, .num b => a < b
  | .num _, .inf negative => !negative
  | .inf negative, .num _ => negative
  | .inf negative, .inf negative' => negative && !negative'
  | _, _ => false

/-- The primitive `<=`. -/
def le : F64 → F64 → Bool
  | .num a, .num b => a ≤ b
  | .num _, .inf negative => !negative
  | .inf negative, .num _ => negative
  | .inf negative, .inf negative' => negative || !negative'
  | _, _ => false

/-- `f64::clamp`. -/
def clamp (lo hi x : F64) : F64 :=
  let x := if x.lt lo then lo else x
  if hi.lt x then hi else x

/-- The number that `is_finite` finds. -/
def finite? : F64 → Option ℚ
  | .num q => some q
  | _ => none

/-! ## Arithmetic -/

/-- The natural number nearest to `n / d`; of two that are equally near, the even one. -/
def nearestNat (n d : Nat) : Nat :=
  let q := n / d
  if 2 * (n % d) < d then q
  else if d < 2 * (n % d) then q + 1
  else if q % 2 = 0 then q
  else q + 1

/-- The last place of a double near `n / d` is worth two to this power: 53 digits, and none below the least
subnormal. -/
def lastPlace (n d : Nat) : Int :=
  let e : Int := Nat.log2 n - Nat.log2 d
  -- The logarithms leave two powers of two for the leading digit.
  let below := if 0 ≤ e then n < d * 2 ^ e.toNat else n * 2 ^ (-e).toNat < d
  max ((if below then e - 1 else e) - 52) (-1074)

/-- The nearest double. -/
def round (q : ℚ) : F64 :=
  let n := q.num.natAbs
  let place := lastPlace n q.den
  let size : ℚ :=
    if 0 ≤ place then (nearestNat n (q.den * 2 ^ place.toNat) * 2 ^ place.toNat : Nat)
    else nearestNat (n * 2 ^ (-place).toNat) q.den / 2 ^ (-place).toNat
  if 2 ^ 1024 ≤ size then .inf (q < 0) else .num (if q < 0 then -size else size)

def neg : F64 → F64
  | .nan => .nan
  | .inf negative => .inf !negative
  | .num a => .num (-a)

/-- `f64::abs`. -/
def abs : F64 → F64
  | .nan => .nan
  | .inf _ => .inf false
  | .num a => .num |a|

def add : F64 → F64 → F64
  | .num a, .num b => round (a + b)
  | .num _, .inf negative => .inf negative
  | .inf negative, .num _ => .inf negative
  | .inf negative, .inf negative' => if negative = negative' then .inf negative else .nan
  | _, _ => .nan

def sub (x y : F64) : F64 := add x y.neg

def mul : F64 → F64 → F64
  | .num a, .num b => round (a * b)
  | .num a, .inf negative => if a = 0 then .nan else .inf (negative ^^ a < 0)
  | .inf negative, .num b => if b = 0 then .nan else .inf (negative ^^ b < 0)
  | .inf negative, .inf negative' => .inf (negative ^^ negative')
  | _, _ => .nan

def div : F64 → F64 → F64
  | .num a, .num b =>
    if b = 0 then (if a = 0 then .nan else .inf (a < 0)) else round (a / b)
  | .num _, .inf _ => .num 0
  | .inf negative, .num b => .inf (negative ^^ b < 0)
  | _, _ => .nan

example : (round (1 / 10)).add (round (1 / 5)) ≠ round (3 / 10) ∧
    (round (1 / 4)).add (round (1 / 2)) = round (3 / 4) := by decide +kernel

example : round (2 ^ 1024 - 2 ^ 970) = .inf false ∧ round (2 ^ 1024 - 2 ^ 970 - 1) = .num ((2 ^ 53 - 1) * 2 ^ 971) ∧
    round (3 / 2 ^ 1075) = .num (1 / 2 ^ 1073) := by decide +kernel

/-! ## Order -/

/-- What lies below `b` and above `a` does not put `b` below `a`. -/
theorem not_le_of_le_of_lt {a b c : F64} (hab : a.le b = true) (hbc : b.lt c = true) :
    c.le a = false := by
  cases a with
  | nan => cases hab
  | inf negA =>
      cases b with
      | nan => cases hab
      | inf negB => cases c <;> cases negA <;> cases negB <;> simp_all [le, lt]
      | num q => cases c <;> cases negA <;> simp_all [le, lt]
  | num p =>
      cases b with
      | nan => cases hab
      | inf negB => cases c <;> cases negB <;> simp_all [le, lt]
      | num q =>
          cases c with
          | nan => cases hbc
          | inf negC => cases negC <;> simp_all [le, lt]
          | num r =>
              have hpq : p ≤ q := by simpa [le] using hab
              have hqr : q < r := by simpa [lt] using hbc
              simpa [le] using lt_of_le_of_lt hpq hqr

/-! ## Parsing -/

/-- A run of decimal digits, read from the left. -/
def digitsValue (digits : List Char) : Nat :=
  digits.foldl (fun acc c => acc * 10 + (c.toNat - 48)) 0

/-- An optional sign. -/
def splitSign : List Char → Bool × List Char
  | [] => (false, [])
  | c :: cs => if c = '-' then (true, cs) else if c = '+' then (false, cs) else (false, c :: cs)

/-- `e` or `E`, an optional sign and at least one digit; nothing at all is exponent zero. -/
def parseExponent : List Char → Option Int
  | [] => some 0
  | c :: cs =>
    if c = 'e' ∨ c = 'E' then
      match splitSign cs with
      | (negative, digits) =>
        if digits.isEmpty || !digits.all Char.isDigit then none
        else if negative then some (-(digitsValue digits : Int)) else some (digitsValue digits)
    else none

def scale (mantissa : Nat) (exponent : Int) : ℚ :=
  if 0 ≤ exponent then mantissa * 10 ^ exponent.toNat else mantissa / 10 ^ (-exponent).toNat

/-- Digits with at most one point among them, and an exponent. -/
def parseNumber (cs : List Char) : Option ℚ :=
  let whole := cs.takeWhile Char.isDigit
  let rest := cs.dropWhile Char.isDigit
  let point := rest.head? = some '.'
  let fraction := if point then rest.tail.takeWhile Char.isDigit else []
  let rest := if point then rest.tail.dropWhile Char.isDigit else rest
  if whole.isEmpty && fraction.isEmpty then none
  else (parseExponent rest).map fun e => scale (digitsValue (whole ++ fraction)) (e - fraction.length)

/-- `str::parse::<f64>`. -/
def parse (s : String) : Option F64 :=
  match splitSign s.toList with
  | (negative, cs) =>
    let word := cs.map Char.toLower
    if word = "inf".toList ∨ word = "infinity".toList then some (.inf negative)
    else if word = "nan".toList then some .nan
    else (parseNumber cs).map fun q => .num (if negative then -q else q)

example : parse "-1.25e1" = some (.num (-25 / 2)) ∧ parse "." = none := by decide +kernel

end F64

end Foundation
end GatewayEdge

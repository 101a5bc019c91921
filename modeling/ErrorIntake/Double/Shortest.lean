import ErrorIntake.Double.Basic
import ErrorIntake.Text.Ascii

/-!
# The shortest decimal of a double

A double is written with the fewest decimal digits that no other double is nearer to; among
equally short decimals the nearest is taken.  `digits?` finds the digits in exact arithmetic: for
one digit, two digits, and so on it tries the two neighbours of the number on that decimal grid.
`toText` then places the point.
-/

namespace ErrorIntake.Double

/-- The exponent `k` with `10^k ≤ n / d < 10^(k+1)`, for a positive ratio. -/
def decimalExponent (n d : Nat) : Int :=
  if d ≤ n then ((Nat.repr (n / d)).length : Int) - 1
  else
    let k := (Nat.repr (d / n)).length
    if d = n * Nat.pow 10 (k - 1) then -((k : Int) - 1) else -(k : Int)

/-- The decimal `c * 10^k` rounds to the double `m * 2^e`: it lies within half a step of it, the
    ends counted when the significand is even.  The step below a power of two is half as wide. -/
def roundsTo (m : Nat) (e : Int) (c : Nat) (k : Int) : Bool :=
  -- everything is multiplied by 4 and by powers of two and ten that make it whole
  let two : Nat × Nat := if 0 ≤ e then (Nat.pow 2 e.toNat, 1) else (1, Nat.pow 2 (-e).toNat)
  let ten : Nat × Nat := if 0 ≤ k then (Nat.pow 10 k.toNat, 1) else (1, Nat.pow 10 (-k).toNat)
  let decimal := 4 * c * ten.1 * two.2
  let unit := two.1 * ten.2
  let above := (4 * m + 2) * unit
  let below := (4 * m - if m = normalLeast ∧ leastExponent < e then 1 else 2) * unit
  if m % 2 = 0 then below ≤ decimal && decimal ≤ above else below < decimal && decimal < above

/-- Of the two neighbours of `n / d` on the grid `10^k`, the one that rounds to the double, and
    the nearer if both do, the even one if they are equally near. -/
def candidate? (x : Double) (k : Int) : Option Nat :=
  let (n, d) := x.toRatio
  let (a, b) := if 0 ≤ k then (n, d * Nat.pow 10 k.toNat) else (n * Nat.pow 10 (-k).toNat, d)
  let low := a / b
  let lowFits := 0 < low && roundsTo x.significand x.exponent low k
  let highFits := roundsTo x.significand x.exponent (low + 1) k
  if lowFits && highFits then some (roundHalfEven a b)
  else if lowFits then some low
  else if highFits then some (low + 1)
  else none

/-- The first grid with a hit, counting digits up from `count`. -/
def search? (x : Double) (top : Int) : (fuel count : Nat) → Option (Nat × Int)
  | 0, _ => none
  | fuel + 1, count =>
    let k := top - (count : Int) + 1
    match candidate? x k with
    | some c => some (c, k)
    | none => search? x top fuel (count + 1)

/-- The digits of a decimal without the zeros at its end, and the power of ten after them. -/
def dropZeros : (digits : List Char) → Int → List Char × Int
  | digits, k =>
    let kept := (digits.reverse.dropWhile (· == '0')).reverse
    (kept, k + (digits.length - kept.length : Nat))

/-- The digits of a positive double, and the power of ten of the first of them. -/
def digits? (x : Double) : Option (List Char × Int) :=
  let (n, d) := x.toRatio
  match search? x (decimalExponent n d) 17 1 with
  | some (c, k) =>
    let (digits, k) := dropZeros (Nat.repr c).toList k
    some (digits, k + (digits.length : Int) - 1)
  | none => none

/-- How the digits of a number are laid out: positional between two powers of ten, and otherwise
    with an exponent after the mark. -/
structure Layout where
  leastPositional : Int
  greatestPositional : Int
  mark : String

/-- JSON text of a double: positional from 10^-5 up to 10^16, otherwise an exponent with its sign;
    a whole number keeps one zero after the point. -/
def jsonLayout : Layout := ⟨-5, 15, "e"⟩

/-- Positional text of digits whose first has the weight `10^top`. -/
def positional (digits : List Char) (top : Int) : List Char :=
  if top < 0 then
    '0' :: '.' :: List.replicate ((-top).toNat - 1) '0' ++ digits
  else
    let whole := top.toNat + 1
    if digits.length ≤ whole then
      digits ++ List.replicate (whole - digits.length) '0' ++ ['.', '0']
    else digits.take whole ++ '.' :: digits.drop whole

/-- Text with an exponent: one digit, the rest after a point if there is one, and the power. -/
def scientific (style : Layout) (digits : List Char) (top : Int) : List Char :=
  let sign := if top < 0 then '-' else '+'
  digits.take 1 ++ (if digits.length ≤ 1 then [] else '.' :: digits.drop 1) ++
    style.mark.toList ++ sign :: (Nat.repr top.natAbs).toList

/-- The text of a double. -/
def toText (style : Layout) (x : Double) : String :=
  let body :=
    match if x.isZero then none else x.digits? with
    | none => ['0', '.', '0']
    | some (digits, top) =>
      if style.leastPositional ≤ top ∧ top ≤ style.greatestPositional then positional digits top
      else scientific style digits top
  String.ofList (if x.negative then '-' :: body else body)

end ErrorIntake.Double

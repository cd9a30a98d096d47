/-!
# Integers in decimal notation

Reading integers of a fixed width and integers of any size. Digits are read from left to right, and
the first problem met is the one reported.

## Main definitions

* `IntegerFault`: why a text is no integer
* `magnitude`: the number of some digits, up to a limit that its type carries
* `Signed`: the integers of a width, in two's complement range
* `Signed.read`: an optional sign and digits, within the range of the width
* `readInteger`: an optional sign and digits, of any size; underscores may separate digits
-/

namespace EntityQuery

/-- Why a text is no integer. -/
inductive IntegerFault where
  /-- No digit at all. -/
  | empty
  /-- A character that is no digit. -/
  | invalidDigit
  /-- Above the range. -/
  | tooLarge
  /-- Below the range. -/
  | tooSmall
  deriving DecidableEq, Repr

/-- The wording of a fault. -/
def IntegerFault.message : IntegerFault → String
  | .empty => "cannot parse integer from empty string"
  | .invalidDigit => "invalid digit found in string"
  | .tooLarge => "number too large to fit in target type"
  | .tooSmall => "number too small to fit in target type"

/-- The value of a decimal digit. -/
def digitValue (c : Char) : Nat := c.toNat - '0'.toNat

/-- The number written by decimal digits. -/
def digitsValue (digits : List Char) : Nat :=
  digits.foldl (fun n c => 10 * n + digitValue c) 0

/-- The number that `digits` continue from `n`, as long as it stays within `limit`. -/
def magnitude (limit : Nat) (overflow : IntegerFault) :
    { n : Nat // n ≤ limit } → List Char → Except IntegerFault { n : Nat // n ≤ limit }
  | n, [] => .ok n
  | n, c :: rest =>
    if c.isDigit then
      if h : 10 * n.1 + digitValue c ≤ limit then magnitude limit overflow ⟨_, h⟩ rest
      else .error overflow
    else .error .invalidDigit

/-! ## Fixed width -/

/-- The least number above the range of a width. -/
def bound (width : Nat) : Nat := Nat.pow 2 (width - 1)

theorem bound_pos (width : Nat) : 0 < bound width := Nat.two_pow_pos _

/-- The integers of a width in two's complement range. -/
structure Signed (width : Nat) where
  /-- The integer. -/
  val : Int
  lower : -(bound width : Int) ≤ val
  upper : val < (bound width : Int)
  deriving DecidableEq, Repr

namespace Signed

variable {width : Nat}

/-- A magnitude below the bound, as it stands. -/
def ofMagnitude (n : { n : Nat // n ≤ bound width - 1 }) : Signed width :=
  ⟨n.1, by omega, by have := bound_pos width; have := n.2; omega⟩

/-- A magnitude up to the bound, negated. -/
def ofNegated (n : { n : Nat // n ≤ bound width }) : Signed width :=
  ⟨-(n.1 : Int), by have := n.2; omega, by have := bound_pos width; omega⟩

/-- Reads digits as a number that is not negative. -/
def readPositive (digits : List Char) : Except IntegerFault (Signed width) :=
  (magnitude (bound width - 1) .tooLarge ⟨0, Nat.zero_le _⟩ digits).map ofMagnitude

/-- Reads digits as the absolute value of a negative number. -/
def readNegative (digits : List Char) : Except IntegerFault (Signed width) :=
  (magnitude (bound width) .tooSmall ⟨0, Nat.zero_le _⟩ digits).map ofNegated

/-- Reads an optional sign and digits. A sign alone is a character that is no digit. -/
def read (text : List Char) : Except IntegerFault (Signed width) :=
  match text with
  | [] => .error .empty
  | ['-'] | ['+'] => .error .invalidDigit
  | '-' :: digits => readNegative digits
  | '+' :: digits => readPositive digits
  | digits => readPositive digits

/-- The decimal notation of an integer of a width. -/
def text (n : Signed width) : String := toString n.val

end Signed

/-! ## Any size -/

/-- The number that `digits` continue from `n`; underscores are passed over. -/
def separatedDigits : Nat → List Char → Except IntegerFault Nat
  | n, [] => .ok n
  | n, c :: rest =>
    if c.isDigit then separatedDigits (10 * n + digitValue c) rest
    else if c = '_' then separatedDigits n rest
    else .error .invalidDigit

/-- Reads digits that do not start with an underscore. -/
def readNatural : List Char → Except IntegerFault Nat
  | [] => .error .empty
  | '_' :: _ => .error .invalidDigit
  | digits => separatedDigits 0 digits

/-- Reads an optional sign and digits of any size. -/
def readInteger : List Char → Except IntegerFault Int
  | '-' :: digits => (readNatural digits).map fun n => -(n : Int)
  | '+' :: digits => (readNatural digits).map fun n => (n : Int)
  | digits => (readNatural digits).map fun n => (n : Int)

end EntityQuery

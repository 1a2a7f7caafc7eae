/-!
# Unsigned numbers

Whole numbers of 32 bits in decimal: digits, with or without a plus sign in front of them.
-/

namespace XcfFlatten.Unsigned

/-- Why a text is not an unsigned number of 32 bits. -/
inductive ParseError where
  | empty
  | invalidDigit
  | tooLarge
  deriving DecidableEq, Repr

/-- The wording of an error. -/
def ParseError.message : ParseError → String
  | empty => "cannot parse integer from empty string"
  | invalidDigit => "invalid digit found in string"
  | tooLarge => "number too large to fit in target type"

/-- The value of a digit. -/
def digit? (c : Char) : Option Nat := if '0' ≤ c ∧ c ≤ '9' then some (c.toNat - '0'.toNat) else none

/-- Reads digits one by one, after those that make up `value`, and stops at the first fault. -/
def digits (value : Nat) : List Char → Except ParseError Nat
  | [] => .ok value
  | c :: rest =>
    match digit? c with
    | none => .error .invalidDigit
    | some d =>
      if value * 10 + d < 0x100000000 then digits (value * 10 + d) rest else .error .tooLarge

/-- The number that a text stands for. A sign alone is no number. -/
def parse (text : List Char) : Except ParseError Nat :=
  match text with
  | [] => .error .empty
  | ['+'] => .error .invalidDigit
  | '+' :: rest => digits 0 rest
  | text => digits 0 text

end XcfFlatten.Unsigned

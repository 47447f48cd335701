/-! # Numerals

Numbers as people type them: digits of some base, and decimal digits with a sign
in front where one is allowed.  Leading zeros are allowed throughout.
-/

namespace Rendezvous.Numeral

def hexDigit? (c : Char) : Option Nat :=
  if '0' ≤ c ∧ c ≤ '9' then some (c.toNat - '0'.toNat)
  else if 'a' ≤ c ∧ c ≤ 'f' then some (c.toNat - 'a'.toNat + 10)
  else if 'A' ≤ c ∧ c ≤ 'F' then some (c.toNat - 'A'.toNat + 10)
  else none

/-- Reads one or more digits of a base up to sixteen, and nothing else. -/
def inBase? (base : Nat) (text : List Char) : Option Nat := do
  let digits ← text.mapM hexDigit?
  if digits ≠ [] ∧ digits.all (· < base) then
    some (digits.foldl (fun n digit => n * base + digit) 0)
  else none

def natural? (text : List Char) : Option Nat := inBase? 10 text

/-- Reads digits after an optional plus sign. -/
def unsigned? : List Char → Option Nat
  | '+' :: digits => natural? digits
  | digits => natural? digits

def signed? : List Char → Option Int
  | '-' :: digits => (natural? digits).map fun n => -(n : Int)
  | digits => (unsigned? digits).map fun n => (n : Int)

end Rendezvous.Numeral

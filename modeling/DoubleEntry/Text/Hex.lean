/-! # Hexadecimal digits

Lower-case digits of a number, at a fixed width or at the least width that shows it, and the value
of a digit in either case.
-/

namespace DoubleEntry.Text

/-- The lower-case digit of a value below sixteen. -/
def hexChar (d : Nat) : Char := if d < 10 then Char.ofNat (48 + d) else Char.ofNat (87 + d)

/-- The value of a digit in either case. -/
def hexValue? (c : Char) : Option Nat :=
  let n := c.toNat
  if 48 ≤ n ∧ n ≤ 57 then some (n - 48)
  else if 97 ≤ n ∧ n ≤ 102 then some (n - 87)
  else if 65 ≤ n ∧ n ≤ 70 then some (n - 55)
  else none

/-- The last `width` digits of a number, most significant first. -/
def hexDigits : Nat → Nat → List Char
  | 0, _ => []
  | width + 1, n => hexDigits width (n / 16) ++ [hexChar (n % 16)]

/-- The number that a run of digits denotes, or none if one of the characters is no digit. -/
def readHex? (cs : List Char) : Option Nat :=
  cs.foldlM (fun value c => (hexValue? c).map (value * 16 + ·)) 0

/-- The digits of a number without leading zeros; zero has one digit. -/
def hex (n : Nat) : List Char :=
  match (hexDigits (n.log2 / 4 + 1) n).dropWhile (· == '0') with
  | [] => ['0']
  | digits => digits

theorem hexDigits_length (width n : Nat) : (hexDigits width n).length = width := by
  induction width generalizing n with
  | zero => rfl
  | succ width ih => simp [hexDigits, ih]

theorem hexValue?_hexChar : ∀ d < 16, hexValue? (hexChar d) = some d := by decide

/-- Reading the digits of a number gives the number back, up to the digits that were dropped. -/
theorem readHex?_hexDigits (width n : Nat) : readHex? (hexDigits width n) = some (n % Nat.pow 16 width) := by
  induction width generalizing n with
  | zero => simp [hexDigits, readHex?, Nat.mod_one]
  | succ width ih =>
    have digit := hexValue?_hexChar (n % 16) (Nat.mod_lt _ (by decide))
    have prefixed := ih (n / 16)
    simp only [readHex?] at prefixed
    simp only [hexDigits, readHex?, List.foldlM_append, prefixed, List.foldlM_cons, digit,
      List.foldlM_nil]
    simp only [Nat.pow_eq, Nat.pow_succ, Nat.mul_comm (16 ^ width) 16, Nat.mod_mul]
    simp
    omega

end DoubleEntry.Text

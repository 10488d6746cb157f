/-!
# Durations as text

A duration is a whole number of milliseconds. Below a second it is written in
milliseconds, from a second on in seconds with as many decimals as it needs.
-/

namespace PacketLayer.Text

/-- Three decimal digits of a number below a thousand. -/
def thousandths (n : Nat) : List Char :=
  [Nat.digitChar (n / 100), Nat.digitChar (n / 10 % 10), Nat.digitChar (n % 10)]

/-- The decimals of a fraction in thousandths, without trailing zeros. -/
def fraction (n : Nat) : String :=
  String.ofList ((thousandths n).reverse.dropWhile (· == '0')).reverse

/-- Writes a number of milliseconds with the unit that suits it. -/
def duration (milliseconds : Nat) : String :=
  if milliseconds = 0 then "0ns"
  else if milliseconds < 1000 then s!"{milliseconds}ms"
  else if milliseconds % 1000 = 0 then s!"{milliseconds / 1000}s"
  else s!"{milliseconds / 1000}." ++ fraction (milliseconds % 1000) ++ "s"

end PacketLayer.Text

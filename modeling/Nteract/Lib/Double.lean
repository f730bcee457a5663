import Mathlib

-- Rounding to binary64, as far as integers are concerned.
namespace Nteract.Lib.Double

def roundHalfEven (value : ℚ) : ℤ :=
  let low := ⌊value⌋
  if value - low < 1 / 2 then low
  else if 1 / 2 < value - low then low + 1
  else if low % 2 = 0 then low
  else low + 1

-- The distance of neighbouring doubles around a value that is not zero.
def ulp (value : ℚ) : ℚ := 2 ^ (max (Int.log 2 |value|) (-1022) - 52)

-- The nearest double. What would overflow stays a number beyond every finite one.
def nearest (value : ℚ) : ℚ :=
  if value = 0 then 0 else ulp value * roundHalfEven (value / ulp value)

end Nteract.Lib.Double

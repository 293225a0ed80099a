import Mathlib.Data.String.Basic

/-!
# Values that the components share

Instants are nanoseconds from the Unix epoch and days are day numbers from the same epoch, both
as integers. A floating-point number is carried as its bit pattern and converted by the host.
-/

namespace StockAnalysis

/-- Nanoseconds since the Unix epoch, UTC. -/
abbrev Instant := Int

/-- Days since the Unix epoch. -/
abbrev Day := Int

/-- The bit pattern of an IEEE 754 double. -/
abbrev F64 := UInt64

/-- The characters of the Unicode `White_Space` property, which `str::trim` removes. -/
def isWhitespace (c : Char) : Bool :=
  let n := c.toNat
  (9 ≤ n && n ≤ 13) || n = 0x20 || n = 0x85 || n = 0xA0 || n = 0x1680 ||
    (0x2000 ≤ n && n ≤ 0x200A) || n = 0x2028 || n = 0x2029 || n = 0x202F || n = 0x205F ||
    n = 0x3000

/-- `text.trim().is_empty()`. -/
def blank (text : String) : Bool :=
  text.toList.all isWhitespace

/-- `text.starts_with(head)`. -/
def startsWith (text head : String) : Bool :=
  head.toList.isPrefixOf text.toList

end StockAnalysis

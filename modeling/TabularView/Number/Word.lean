set_option autoImplicit false

/-! # Numbers of 64 bits

Counts and whole numbers in documents and arguments have to fit in 64 bits, without or with a
sign. -/

namespace TabularView

/-- The number fits in 64 bits without a sign. -/
def isUnsigned64 (n : Int) : Bool :=
  0 ≤ n && n ≤ 18446744073709551615

/-- The number fits in 64 bits with a sign. -/
def isSigned64 (n : Int) : Bool :=
  -9223372036854775808 ≤ n && n ≤ 9223372036854775807

end TabularView

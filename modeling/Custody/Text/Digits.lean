/-!
# Decimal digits
-/

namespace Custody.Text

def digitsValue (digits : List Char) : Nat :=
  digits.foldl (fun n c => 10 * n + (c.toNat - 48)) 0

end Custody.Text

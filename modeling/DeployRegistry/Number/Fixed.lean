import DeployRegistry.Number.Binary64

/-!
# Amounts with six places

Amounts are written with six digits behind the point, the last one rounded to nearest and a half
to the even digit. An amount beyond all numbers is written as a word.
-/

namespace DeployRegistry.Number

set_option autoImplicit false

def sixPlaces (q : Rat) : String :=
  let millionths := (halfEvenRat (q * 1000000)).natAbs
  let sign := if q < 0 then ['-'] else []
  String.ofList
    (sign ++ digits (millionths / 1000000) ++ '.' :: padded 6 (millionths % 1000000))

def Binary64.sixPlaces : Binary64 → String
  | finite q => Number.sixPlaces q
  | negativeZero => "-0.000000"
  | infinite negative => if negative then "-inf" else "inf"
  | notANumber => "nan"

end DeployRegistry.Number

namespace Distfix.Text

def decimal : Nat → List Char → Option Nat
  | value, [] => some value
  | value, c :: cs =>
    if c = '_' then decimal value cs
    else if c.isDigit then decimal (10 * value + (c.toNat - '0'.toNat)) cs
    else none

/-- The digits may follow a plus sign and do not begin with an underscore. -/
def parseDecimal (text : String) : Option Nat :=
  let digits := match text.toList with
    | '+' :: cs => cs
    | cs => cs
  match digits with
  | [] | '_' :: _ => none
  | cs => decimal 0 cs

end Distfix.Text

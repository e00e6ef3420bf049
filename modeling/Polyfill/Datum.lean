/-!
# Data

The plain data that answers and log lines are made of, and that timers take as arguments.
-/

namespace Polyfill

/-- Plain data. -/
inductive Datum where
  | null
  | bool (b : Bool)
  /-- The number `mantissa / 10 ^ scale`. -/
  | number (mantissa : Int) (scale : Nat)
  | text (s : String)
  | list (items : List Datum)
  | object (fields : List (String × Datum))

namespace Datum

/-- A count. -/
def nat (n : Nat) : Datum :=
  number n 0

/-- A list of texts. -/
def texts (items : List String) : Datum :=
  list (items.map text)

end Datum

end Polyfill

import Polyfill.Host
import Polyfill.Decimal.Double
import Polyfill.Hash.Algorithm
/-!
# Values with a text

What may stand where a function wants a text: anything that has one.
-/

namespace Polyfill

/-- Something that has a text. -/
inductive Value where
  | text (s : String)
  | bool (b : Bool)
  | int (n : Int)
  | double (x : Float)
  | char (c : Char)
  | timer (id : Nat)
  /-- The algorithm with a name, if there is one. -/
  | hashAlgorithm (name : String)
  | hmacAlgorithm (name : String)
  | capability (name : String)
  | repeated (unit : String) (count : Nat)
  | concat (parts : List Value)

/-- The text of a timer's number. -/
def timerText (id : Nat) : String :=
  "#" ++ toString id

namespace Value

mutual

/-- The text of a value.  Only a name that stands for nothing has none. -/
def toText : Value → Except Error String
  | text s => .ok s
  | bool b => .ok (if b then "true" else "false")
  | int n => .ok (toString n)
  | double x => .ok (Double.text x)
  | char c => .ok c.toString
  | timer id => .ok (timerText id)
  | hashAlgorithm name => (HashAlgorithm.ofName name).map HashAlgorithm.name
  | hmacAlgorithm name => (HmacAlgorithm.ofName name).map HmacAlgorithm.name
  | capability name => (Host.capability name).map Capability.globalName
  | repeated unit count => .ok (String.join (List.replicate count unit))
  | concat parts => textOfAll parts

/-- The texts of some values, joined; the first value without a text decides. -/
def textOfAll : List Value → Except Error String
  | [] => .ok ""
  | v :: rest =>
    match v.toText with
    | .error e => .error e
    | .ok s =>
      match textOfAll rest with
      | .error e => .error e
      | .ok t => .ok (s ++ t)

end

end Value

end Polyfill

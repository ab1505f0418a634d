import Mathlib.Data.Rat.Floor

/-!
# JSON values, as Python reads them

What `json.loads` returns, and the operations on a value whose type nobody has checked: a lookup of a
key, of an item, a conversion to a number. Each raises what Python raises. A dictionary is the list of
its items, keys distinct.
-/

namespace EnergyAgent.Lib

/-- The exceptions of the operations below. A `JSONDecodeError` is a `ValueError`, and so is
pydantic's `ValidationError`. -/
inductive PyError
  | attribute | type | key | index | value | overflow
  deriving DecidableEq, Repr

/-- A `float`; `NaN` and `Infinity` are numbers of a JSON text for Python. -/
inductive PyFloat
  | finite (q : Rat)
  | nan
  | infinity (negative : Bool)
  deriving DecidableEq, Repr

inductive Json
  | null
  | bool (b : Bool)
  | int (n : Int)
  | float (x : PyFloat)
  | str (s : String)
  | arr (items : List Json)
  | obj (fields : List (String × Json))

/-- What `int` and `float` read in a text; `none` is a `ValueError`. -/
structure NumberParser where
  int : String → Option Int
  float : String → Option PyFloat

namespace Json

/-- The value of a key, if it is there. -/
def field (fields : List (String × Json)) (name : String) : Option Json :=
  (fields.find? fun f => f.1 = name).map Prod.snd

/-- `value.get(name, default)` -/
def get (value : Json) (name : String) (default : Json := .null) : Except PyError Json :=
  match value with
  | .obj fields => .ok ((field fields name).getD default)
  | _ => .error .attribute

/-- `value[name]` -/
def subscript (value : Json) (name : String) : Except PyError Json :=
  match value with
  | .obj fields => ((field fields name).map .ok).getD (.error .key)
  | _ => .error .type

/-- `value[0]` -/
def first : Json → Except PyError Json
  | .arr [] => .error .index
  | .arr (item :: _) => .ok item
  | .str s => (s.toList.head?.map fun c => .ok (.str (String.ofList [c]))).getD (.error .index)
  | .obj _ => .error .key
  | _ => .error .type

/-- What `for item in value` goes through. -/
def iterate : Json → Except PyError (List Json)
  | .arr items => .ok items
  | .obj fields => .ok (fields.map fun f => .str f.1)
  | .str s => .ok (s.toList.map fun c => .str (String.ofList [c]))
  | _ => .error .type

/-- `bool(value)` -/
def truthy : Json → Bool
  | .null => false
  | .bool b => b
  | .int n => n ≠ 0
  | .float x => x ≠ .finite 0
  | .str s => s ≠ ""
  | .arr items => !items.isEmpty
  | .obj fields => !fields.isEmpty

/-- `int(value)` -/
def toInt (parser : NumberParser) : Json → Except PyError Int
  | .int n => .ok n
  | .bool b => .ok b.toInt
  | .float (.finite q) => .ok (if 0 ≤ q then ⌊q⌋ else ⌈q⌉)
  | .float .nan => .error .value
  | .float (.infinity _) => .error .overflow
  | .str s => ((parser.int s).map .ok).getD (.error .value)
  | _ => .error .type

/-- Integers from here on would be rounded to `2 ** 1024`. -/
@[irreducible] def floatLimit : Nat := 2 ^ 1024 - 2 ^ 970

/-- `float(value)`, without rounding; an integer may be too large for it. -/
def toFloat (parser : NumberParser) : Json → Except PyError PyFloat
  | .int n => if n.natAbs < floatLimit then .ok (.finite n) else .error .overflow
  | .bool b => .ok (.finite b.toInt)
  | .float x => .ok x
  | .str s => ((parser.float s).map .ok).getD (.error .value)
  | _ => .error .type

/-- The integer that the value is, if `isinstance(value, int)`. -/
def asInt : Json → Option Int
  | .int n => some n
  | .bool b => some b.toInt
  | _ => none

/-- The items of the value, if `isinstance(value, list)`. -/
def asList : Json → Option (List Json)
  | .arr items => some items
  | _ => none

/-- `isinstance(value, (int, float))` -/
def isNumber : Json → Bool
  | .int _ | .bool _ | .float _ => true
  | _ => false

end Json

/-- The value of a finite number. -/
def PyFloat.value : PyFloat → Option Rat
  | .finite q => some q
  | _ => none

/-- `max(0.0, min(1.0, x))`; a comparison with `NaN` is false. -/
def PyFloat.clamp : PyFloat → Rat
  | .finite q => max 0 (min 1 q)
  | .nan => 1
  | .infinity negative => if negative then 0 else 1

end EnergyAgent.Lib

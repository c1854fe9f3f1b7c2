import SmithsNet.Lib.Text

/-!
# SmithsNet.Mcp.Value

JSON values as `serde_json` holds them, over the type of numbers `N`.
-/

namespace SmithsNet.Mcp

open Lib

/-- `serde_json::Value`. -/
inductive Value (N : Type)
  | null
  | bool (b : Bool)
  | number (n : N)
  | string (s : Text)
  | array (items : List (Value N))
  | object (map : List (Text × Value N))

namespace Value

variable {N : Type}

/-- `get`: the member under a key, if the value is an object that has one. -/
def get : Value N → Text → Option (Value N)
  | .object map, key => map.lookup key
  | _, _ => none

/-- `value[key]`: `null` where there is no such member. -/
def index (v : Value N) (key : Text) : Value N := (v.get key).getD .null

/-- `as_str`. -/
def asStr : Value N → Option Text
  | .string s => some s
  | _ => none

end Value

end SmithsNet.Mcp

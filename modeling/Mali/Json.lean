import Mali.Decimal
import Mali.Error

/-!
# Writing JSON

Reports are written as JSON without any spaces, members in the order given.  Strings escape
quotes, backslashes and control characters only.

* `Json`: the values that are written.
* `Json.render`: their text.
-/

namespace Mali

/-- A value to write. -/
inductive Json where
  | number (n : Int)
  /-- A count written as a floating point number. -/
  | double (n : Nat)
  /-- The floating point number nearest to `v / 10 ^ places`. -/
  | decimal (v : Int) (places : Nat)
  | text (s : String)
  | truth (b : Bool)
  | array (items : List Json)
  | object (members : List (String × Json))
  deriving Inhabited

namespace Json

/-- A character inside a quoted string. -/
def escape (c : Char) : String :=
  if c = '"' then "\\\""
  else if c = '\\' then "\\\\"
  else if c = '\x08' then "\\b"
  else if c = '\t' then "\\t"
  else if c = '\n' then "\\n"
  else if c = '\x0c' then "\\f"
  else if c = '\r' then "\\r"
  else if c.toNat < 0x20 then
    "\\u00" ++ (if c.toNat < 0x10 then "0" else "") ++ hexDigits c.toNat
  else c.toString

/-- A quoted string. -/
def quote (s : String) : String :=
  "\"" ++ String.join (s.toList.map escape) ++ "\""

mutual

/-- The text of a value. -/
def render : Json → String
  | number n => toString n
  | double n => doubleText n
  | decimal v places => decimalText v places
  | text s => quote s
  | truth b => if b then "true" else "false"
  | array items => "[" ++ ",".intercalate (renderItems items) ++ "]"
  | object members => "\x7b" ++ ",".intercalate (renderMembers members) ++ "\x7d"

/-- The texts of the items of an array. -/
def renderItems : List Json → List String
  | [] => []
  | j :: js => j.render :: renderItems js

/-- The texts of the members of an object. -/
def renderMembers : List (String × Json) → List String
  | [] => []
  | (name, j) :: ms => (quote name ++ ":" ++ j.render) :: renderMembers ms

end

end Json

end Mali

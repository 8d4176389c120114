import SqlFragments.Rounding.Shortest
import SqlFragments.Text.Quoted

/-! # JSON values

Values, and their compact text: no spaces, the members of an object in the order of their names. -/

namespace SqlFragments

open SqlFragments.Rounding

namespace Json

/-- A number: an integer, or else a number of double precision. -/
inductive Number where
  | integer (value : Int)
  | double (negative : Bool) (magnitude : Magnitude)
  deriving DecidableEq, Repr

/-- Numbers are written out in full if their first digit stands between the fifth place behind
the point and the sixteenth before it. -/
def numberNotation : Notation := ⟨-5, 15⟩

/-- The text of a number. -/
def Number.render : Number → String
  | .integer value => toString value
  | .double negative magnitude =>
    (if negative then "-" else "") ++ magnitude.render numberNotation

end Json

/-- A JSON value. -/
inductive Json where
  | null
  | bool (value : Bool)
  | number (value : Json.Number)
  | string (value : String)
  | array (items : List Json)
  /-- The members, in the order of their names, which are all different. -/
  | object (members : List (String × Json))

namespace Json

/-- A number as two hexadecimal digits. -/
def hexPair (n : Nat) : String := String.ofList [Nat.digitChar (n / 16), Nat.digitChar (n % 16)]

/-- The text of a character in a string. -/
def renderChar (c : Char) : String :=
  match c with
  | '"' => "\\\""
  | '\\' => "\\\\"
  | '\x08' => "\\b"
  | '\x0c' => "\\f"
  | '\n' => "\\n"
  | '\r' => "\\r"
  | '\t' => "\\t"
  | c => if c.toNat < 0x20 then "\\u00" ++ hexPair c.toNat else String.singleton c

/-- The text of a string. -/
def renderString (s : String) : String :=
  "\"" ++ String.join (s.toList.map renderChar) ++ "\""

/-- The word for a truth value. -/
def renderBool (b : Bool) : String := if b then "true" else "false"

mutual

/-- The compact text of a value. -/
def render : Json → String
  | .null => "null"
  | .bool b => renderBool b
  | .number n => n.render
  | .string s => renderString s
  | .array items => "[" ++ String.intercalate "," (renderItems items) ++ "]"
  | .object members => "\x7b" ++ String.intercalate "," (renderMembers members) ++ "\x7d"

/-- The texts of the items of an array. -/
def renderItems : List Json → List String
  | [] => []
  | item :: items => render item :: renderItems items

/-- The texts of the members of an object. -/
def renderMembers : List (String × Json) → List String
  | [] => []
  | (name, value) :: members => (renderString name ++ ":" ++ render value) :: renderMembers members

end

end Json

end SqlFragments

import SqlFragments.Dict
import SqlFragments.Json.Basic
import SqlFragments.Json.Error
import SqlFragments.Text.Break

/-! # Reading JSON

Each reading function takes the text that is left and gives a value and what is left behind it,
or a failure. A failure says how many bytes lie behind the place where it was noticed; line and
column are found from that once, at the end.

An object keeps one member of each name, the last one. Numbers that are no integers of 64 bits
are of double precision: the digits as an integer of 64 bits, rounded, times or divided by a power
of ten, rounded again. -/

namespace SqlFragments.Json

open SqlFragments.Rounding
open SqlFragments.Text

/-- Why reading stopped, and how many bytes lie behind the place. -/
structure Failure where
  cause : Cause
  behind : Nat
  deriving DecidableEq, Repr

/-- A failure right before the text that is left. -/
def failBefore {α : Type} (cause : Cause) (cs : List Char) : Except Failure α :=
  .error ⟨cause, byteLength cs⟩

/-- A failure at the first byte of the text that is left, which counts as read. -/
def failAt {α : Type} (cause : Cause) (cs : List Char) : Except Failure α :=
  .error ⟨cause, byteLength cs - 1⟩

/-- The text that is left behind spaces. -/
def skipSpace (cs : List Char) : List Char := cs.dropWhile isSpace

/-- Reads the rest of a word. -/
def readWord : List Char → List Char → Except Failure (List Char)
  | [], cs => .ok cs
  | _ :: _, [] => failBefore .endInValue []
  | w :: word, c :: cs => if c = w then readWord word cs else failAt .expectedWord (c :: cs)

/-! ## Numbers -/

/-- The value of a decimal digit. -/
def decimalDigit (c : Char) : Nat := c.toNat - '0'.toNat

/-- Reads digits as long as the number they write is below `limit`. Gives the number, how many
digits were read and what is left. -/
def readDigits (limit : Nat) (value : Nat) : List Char → Nat × Nat × List Char
  | [] => (value, 0, [])
  | c :: cs =>
    if c.isDigit && value * 10 + decimalDigit c < limit then
      let (result, count, rest) := readDigits limit (value * 10 + decimalDigit c) cs
      (result, count + 1, rest)
    else (value, 0, c :: cs)

/-- A power of ten of double precision. -/
def powerOfTen (exponent : Nat) : Option Magnitude := Magnitude.ofRatio (Nat.pow 10 exponent) 1

/-- A number divided by a power of ten of double precision. -/
def divideByPower (x : Magnitude) (exponent : Nat) : Option Magnitude :=
  (powerOfTen exponent).bind x.div

/-- A number multiplied by a power of ten of double precision. -/
def multiplyByPower (x : Magnitude) (exponent : Nat) : Option Magnitude :=
  (powerOfTen exponent).bind x.mul

/-- The exponent of the greatest power of ten of double precision. -/
def greatestPower : Nat := 308

/-- A number times a power of ten, in steps that stay within the powers of ten of double
precision; `none` if the result is too great. -/
def scaleByTen (x : Magnitude) (exponent : Int) : Option Magnitude :=
  if exponent.natAbs ≤ greatestPower then
    if 0 ≤ exponent then multiplyByPower x exponent.natAbs
    else divideByPower x exponent.natAbs
  else if x.mantissa = 0 then some x
  else if 0 ≤ exponent then none
  else (divideByPower x greatestPower).bind fun y => scaleByTen y (exponent + greatestPower)
termination_by exponent.natAbs
decreasing_by simp only [greatestPower] at *; omega

/-- The number of double precision with these digits and this exponent of ten. -/
def doubleOfParts (negative : Bool) (digits : Nat) (exponent : Int) (rest : List Char) :
    Except Failure (Number × List Char) :=
  match (Magnitude.ofRatio digits 1).bind (scaleByTen · exponent) with
  | none => failBefore .numberOutOfRange rest
  | some magnitude => .ok (.double negative magnitude, rest)

/-- Exponents of ten are numbers below this one. -/
def exponentLimit : Nat := Nat.pow 2 31

/-- Integers without sign are numbers below this one. -/
def integerLimit : Nat := Nat.pow 2 64

/-- Reads the digits of an exponent. A greater exponent than fits leaves zero if it is negative or
if there is nothing but zeros before it. -/
def readExponentDigits (negative : Bool) (digits : Nat) (start : Int) (below : Bool)
    (cs : List Char) : Except Failure (Number × List Char) :=
  match cs with
  | [] => failBefore .endInValue []
  | c :: more =>
    if c.isDigit then
      match readDigits exponentLimit (decimalDigit c) more with
      | (value, _, d :: rest) =>
        if d.isDigit then
          -- the digit that does not fit is read before the failure is noticed
          if digits ≠ 0 && !below then failBefore .numberOutOfRange rest
          else .ok (.double negative .zero, rest.dropWhile Char.isDigit)
        else
          let exponent : Int := if below then start - value else start + value
          doubleOfParts negative digits exponent (d :: rest)
      | (value, _, []) =>
        let exponent : Int := if below then start - value else start + value
        doubleOfParts negative digits exponent []
    else failAt .invalidNumber (c :: more)

/-- Reads an exponent, given the text behind its mark. -/
def readExponent (negative : Bool) (digits : Nat) (start : Int) (cs : List Char) :
    Except Failure (Number × List Char) :=
  match cs with
  | '+' :: more => readExponentDigits negative digits start false more
  | '-' :: more => readExponentDigits negative digits start true more
  | _ => readExponentDigits negative digits start false cs

/-- Reads what may follow the digits of a number: an exponent or nothing. -/
def readAfterDigits (negative : Bool) (digits : Nat) (exponent : Int) (cs : List Char) :
    Except Failure (Number × List Char) :=
  match cs with
  | 'e' :: more => readExponent negative digits exponent more
  | 'E' :: more => readExponent negative digits exponent more
  | _ => doubleOfParts negative digits exponent cs

/-- Reads the digits behind a point. Digits that the integer of 64 bits cannot take do not
count. -/
def readFraction (negative : Bool) (digits : Nat) (exponent : Int) (cs : List Char) :
    Except Failure (Number × List Char) :=
  let (digits, count, left) := readDigits integerLimit digits cs
  let rest := left.dropWhile Char.isDigit
  if rest.length = cs.length then
    match cs with
    | [] => failBefore .endInValue []
    | _ => failAt .invalidNumber cs
  else readAfterDigits negative digits (exponent - count) rest

/-- The number that an integer without point and exponent stands for. The negative integers that
do not fit, and zero with a sign, are of double precision. -/
def integerNumber (negative : Bool) (digits : Nat) (rest : List Char) :
    Except Failure (Number × List Char) :=
  if negative then
    if digits ≠ 0 && digits ≤ Nat.pow 2 63 then .ok (.integer (-(digits : Int)), rest)
    else doubleOfParts true digits 0 rest
  else .ok (.integer digits, rest)

/-- Reads what may follow the integer part of a number. -/
def readAfterInteger (negative : Bool) (digits : Nat) (cs : List Char) :
    Except Failure (Number × List Char) :=
  match cs with
  | '.' :: more => readFraction negative digits 0 more
  | 'e' :: more => readExponent negative digits 0 more
  | 'E' :: more => readExponent negative digits 0 more
  | _ => integerNumber negative digits cs

/-- Reads a number, given the text behind its sign. Digits that the integer of 64 bits cannot take
only count for the exponent of ten. -/
def readNumber (negative : Bool) (cs : List Char) : Except Failure (Number × List Char) :=
  match cs with
  | [] => failBefore .endInValue []
  | '0' :: more =>
    match more with
    | d :: _ => if d.isDigit then failAt .invalidNumber more else readAfterInteger negative 0 more
    | [] => readAfterInteger negative 0 []
  | c :: more =>
    if c.isDigit then
      let (digits, _, left) := readDigits integerLimit (decimalDigit c) more
      let excess := left.takeWhile Char.isDigit
      if excess.isEmpty then readAfterInteger negative digits left
      else
        -- too long for an integer, so a double even without point and exponent
        match left.dropWhile Char.isDigit with
        | '.' :: rest => readFraction negative digits excess.length rest
        | rest => readAfterDigits negative digits excess.length rest
    else failAt .invalidNumber (c :: more)

/-! ## Strings -/

/-- The value of a hexadecimal digit. -/
def hexDigit (c : Char) : Option Nat :=
  if '0' ≤ c ∧ c ≤ '9' then some (c.toNat - '0'.toNat)
  else if 'a' ≤ c ∧ c ≤ 'f' then some (c.toNat - 'a'.toNat + 10)
  else if 'A' ≤ c ∧ c ≤ 'F' then some (c.toNat - 'A'.toNat + 10)
  else none

/-- The value of four hexadecimal digits. -/
def hexValue (a b c d : Char) : Option Nat := do
  return ((← hexDigit a) * 16 + (← hexDigit b)) * 256 + (← hexDigit c) * 16 + (← hexDigit d)

/-- Reads four hexadecimal digits. Four bytes are looked at, whatever they are. -/
def readHex (cs : List Char) : Except Failure (Nat × List Char) :=
  if byteLength cs < 4 then failBefore .endInString []
  else
    -- the fourth byte may lie inside a character, which is then no digit either
    match cs with
    | a :: b :: c :: d :: rest =>
      match hexValue a b c d with
      | some value => .ok (value, rest)
      | none => .error ⟨.invalidEscape, byteLength cs - 4⟩
    | _ => .error ⟨.invalidEscape, byteLength cs - 4⟩

/-- Reads the second half of a pair of escapes that together write one character. -/
def readSecondHalf (first : Nat) (cs : List Char) : Except Failure (Char × List Char) :=
  match cs with
  | [] => failBefore .endInString []
  | '\\' :: more =>
    match more with
    | [] => failBefore .endInString []
    | 'u' :: digits =>
      match readHex digits with
      | .error e => .error e
      | .ok (second, rest) =>
        if 0xDC00 ≤ second && second ≤ 0xDFFF then
          .ok (Char.ofNat ((first - 0xD800) * 0x400 + (second - 0xDC00) + 0x10000), rest)
        else failBefore .loneSurrogate rest
    | _ => failAt .endOfHexEscape more
  | _ => failAt .endOfHexEscape cs

/-- Reads a character written by its number. -/
def readHexEscape (cs : List Char) : Except Failure (Char × List Char) :=
  match readHex cs with
  | .error e => .error e
  | .ok (value, rest) =>
    if 0xDC00 ≤ value && value ≤ 0xDFFF then failBefore .loneSurrogate rest
    else if 0xD800 ≤ value && value ≤ 0xDBFF then readSecondHalf value rest
    else .ok (Char.ofNat value, rest)

/-- Reads an escape, given the text behind the backslash. -/
def readEscape (cs : List Char) : Except Failure (Char × List Char) :=
  match cs with
  | [] => failBefore .endInString []
  | '"' :: rest => .ok ('"', rest)
  | '\\' :: rest => .ok ('\\', rest)
  | '/' :: rest => .ok ('/', rest)
  | 'b' :: rest => .ok ('\x08', rest)
  | 'f' :: rest => .ok ('\x0c', rest)
  | 'n' :: rest => .ok ('\n', rest)
  | 'r' :: rest => .ok ('\r', rest)
  | 't' :: rest => .ok ('\t', rest)
  | 'u' :: rest => readHexEscape rest
  | _ => failAt .invalidEscape cs

/-- Reads a string up to its closing quote, in at most `fuel` characters. -/
def readChars : Nat → List Char → Except Failure (List Char × List Char)
  | 0, cs => failBefore .endInString cs
  | _ + 1, [] => failBefore .endInString []
  | fuel + 1, c :: cs =>
    if c = '"' then .ok ([], cs)
    else if c = '\\' then
      match readEscape cs with
      | .error e => .error e
      | .ok (d, rest) =>
        match readChars fuel rest with
        | .error e => .error e
        | .ok (ds, rest) => .ok (d :: ds, rest)
    else if c.toNat < 0x20 then failAt .controlCharacter (c :: cs)
    else
      match readChars fuel cs with
      | .error e => .error e
      | .ok (ds, rest) => .ok (c :: ds, rest)

/-- Reads a string, given the text behind its opening quote. -/
def readString (cs : List Char) : Except Failure (String × List Char) :=
  match readChars (cs.length + 1) cs with
  | .error e => .error e
  | .ok (ds, rest) => .ok (String.ofList ds, rest)

/-! ## Values -/

mutual

/-- Reads a value inside of which `depth` arrays and objects may be nested. `fuel` bounds the
number of steps; three for each character are enough. -/
def readValue (fuel depth : Nat) (cs : List Char) : Except Failure (Json × List Char) :=
  match fuel with
  | 0 => failBefore .endInValue cs
  | fuel + 1 =>
    match skipSpace cs with
    | [] => failBefore .endInValue []
    | c :: rest =>
      if c = 'n' then (readWord "ull".toList rest).map fun rest => (.null, rest)
      else if c = 't' then (readWord "rue".toList rest).map fun rest => (.bool true, rest)
      else if c = 'f' then (readWord "alse".toList rest).map fun rest => (.bool false, rest)
      else if c = '-' then (readNumber true rest).map fun p => (.number p.1, p.2)
      else if c.isDigit then (readNumber false (c :: rest)).map fun p => (.number p.1, p.2)
      else if c = '"' then (readString rest).map fun p => (.string p.1, p.2)
      else if c = '[' then
        match depth with
        | 0 => failAt .tooDeep (c :: rest)
        | depth + 1 => (readItems fuel depth true rest).map fun p => (.array p.1, p.2)
      else if c = '{' then
        match depth with
        | 0 => failAt .tooDeep (c :: rest)
        | depth + 1 => (readMembers fuel depth true [] rest).map fun p => (.object p.1, p.2)
      else failAt .expectedValue (c :: rest)

/-- Reads the items of an array up to its end. `first` says that none has been read yet. -/
def readItems (fuel depth : Nat) (first : Bool) (cs : List Char) :
    Except Failure (List Json × List Char) :=
  match fuel with
  | 0 => failBefore .endInList cs
  | fuel + 1 =>
    match skipSpace cs with
    | [] => failBefore .endInList []
    | c :: rest =>
      if c = ']' then .ok ([], rest)
      else if first then readItem fuel depth (c :: rest)
      else if c = ',' then
        match skipSpace rest with
        | [] => failBefore .endInValue []
        | d :: more =>
          if d = ']' then failAt .trailingComma (d :: more)
          else readItem fuel depth (d :: more)
      else failAt .expectedListEnd (c :: rest)

/-- Reads an item of an array and those behind it. -/
def readItem (fuel depth : Nat) (cs : List Char) : Except Failure (List Json × List Char) :=
  match fuel with
  | 0 => failBefore .endInList cs
  | fuel + 1 =>
    match readValue fuel depth cs with
    | .error e => .error e
    | .ok (item, rest) => (readItems fuel depth false rest).map fun p => (item :: p.1, p.2)

/-- Reads the members of an object up to its end, `members` being those read so far. -/
def readMembers (fuel depth : Nat) (first : Bool) (members : List (String × Json))
    (cs : List Char) : Except Failure (List (String × Json) × List Char) :=
  match fuel with
  | 0 => failBefore .endInObject cs
  | fuel + 1 =>
    match skipSpace cs with
    | [] => failBefore .endInObject []
    | c :: rest =>
      if c = '}' then .ok (members, rest)
      else if first then
        if c = '"' then readMember fuel depth members rest else failAt .keyNotString (c :: rest)
      else if c = ',' then
        match skipSpace rest with
        | [] => failBefore .endInValue []
        | d :: more =>
          if d = '"' then readMember fuel depth members more
          else if d = '}' then failAt .trailingComma (d :: more)
          else failAt .keyNotString (d :: more)
      else failAt .expectedObjectEnd (c :: rest)

/-- Reads a member of an object, given the text behind the opening quote of its name, and those
behind it. -/
def readMember (fuel depth : Nat) (members : List (String × Json)) (cs : List Char) :
    Except Failure (List (String × Json) × List Char) :=
  match fuel with
  | 0 => failBefore .endInObject cs
  | fuel + 1 =>
    match readString cs with
    | .error e => .error e
    | .ok (name, rest) =>
      match skipSpace rest with
      | [] => failBefore .endInObject []
      | c :: more =>
        if c = ':' then
          match readValue fuel depth more with
          | .error e => .error e
          | .ok (value, rest) =>
            readMembers fuel depth false (Dict.put name value members) rest
        else failAt .expectedColon (c :: more)

end

/-- How deep arrays and objects may be nested. -/
def depthLimit : Nat := 127

/-- The line and the column of the place that many bytes into a text, counted on from a line and a
column. -/
def locate (line column : Nat) : Nat → List Char → Nat × Nat
  | _, [] => (line, column)
  | bytes, c :: cs =>
    if bytes = 0 then (line, column)
    else if c = '\n' then locate (line + 1) 0 (bytes - 1) cs
    else if bytes ≤ c.utf8Size then (line, column + bytes)
    else locate line (column + c.utf8Size) (bytes - c.utf8Size) cs

/-- Reads a text that is one value with spaces around it. -/
def readText (cs : List Char) : Except Failure Json :=
  match readValue (3 * cs.length + 3) depthLimit cs with
  | .error e => .error e
  | .ok (value, rest) =>
    match skipSpace rest with
    | [] => .ok value
    | more => failAt .trailingCharacters more

/-- The value of a JSON text. -/
def ofText (text : String) : Except Error Json :=
  let cs := text.toList
  match readText cs with
  | .ok value => .ok value
  | .error failure =>
    let (line, column) := locate 1 0 (byteLength cs - failure.behind) cs
    .error ⟨failure.cause, line, column⟩

end SqlFragments.Json

import SqlFragments.Markup.Error
import SqlFragments.Text.Break

/-! # Entities

Text and attribute values write some characters as entities: five by name, any by the number of
its code point. `unescape` replaces all of them. -/

namespace SqlFragments.Markup

open SqlFragments.Text

/-- The character of a named entity. -/
def namedCharacter : List Char → Option Char
  | ['l', 't'] => some '<'
  | ['g', 't'] => some '>'
  | ['a', 'm', 'p'] => some '&'
  | ['a', 'p', 'o', 's'] => some '\''
  | ['q', 'u', 'o', 't'] => some '"'
  | _ => none

/-- The value of a digit in base ten or sixteen. -/
def digitValue (base : Nat) (c : Char) : Option Nat :=
  let value :=
    if '0' ≤ c ∧ c ≤ '9' then c.toNat - '0'.toNat
    else if 'a' ≤ c ∧ c ≤ 'f' then c.toNat - 'a'.toNat + 10
    else if 'A' ≤ c ∧ c ≤ 'F' then c.toNat - 'A'.toNat + 10
    else base
  if value < base then some value else none

/-- Reads on in a number of 32 bits whose digits so far have the value `acc`. -/
def readDigits (base acc : Nat) : List Char → Except NumberError Nat
  | [] => .ok acc
  | c :: cs =>
    match digitValue base c with
    | none => .error .invalidDigit
    | some digit =>
      if acc * base + digit < Nat.pow 2 32 then readDigits base (acc * base + digit) cs
      else .error .tooLarge

/-- The unsigned number of 32 bits that a text writes. -/
def readCode (base : Nat) (cs : List Char) : Except EntityError Nat :=
  match cs with
  | [] => .error (.invalidNumber .empty)
  | c :: _ =>
    if c = '+' ∨ c = '-' then .error .unexpectedSign
    else
      match readDigits base 0 cs with
      | .error e => .error (.invalidNumber e)
      | .ok code => .ok code

/-- The character of a code point, which must not be zero. -/
def characterOfCode (code : Nat) : Except EntityError Char :=
  if code = 0 then .error (.illegalCharacter code)
  else if h : code.isValidChar then .ok (Char.ofNatAux code h)
  else .error (.invalidCodepoint code)

/-- The character of a character reference, given the text behind its hash sign. -/
def numberedCharacter (cs : List Char) : Except EntityError Char := do
  match cs with
  | 'x' :: digits => characterOfCode (← readCode 16 digits)
  | digits => characterOfCode (← readCode 10 digits)

/-- Replaces the entities of a text that begins `place` bytes into the whole. -/
def unescapeFrom (place : Nat) : List Char → Except EntityError (List Char)
  | [] => .ok []
  | c :: cs =>
    if c = '&' then
      let name := cs.takeWhile fun d => d != '&' && d != ';'
      match _h : cs.dropWhile fun d => d != '&' && d != ';' with
      | ';' :: rest => do
        let character ←
          match name with
          | '#' :: number => numberedCharacter number
          | _ =>
            match namedCharacter name with
            | some character => .ok character
            | none =>
              .error (.unknown (place + 1) (place + 1 + byteLength name) (String.ofList name))
        let more ← unescapeFrom (place + 1 + byteLength name + 1) rest
        return character :: more
      | _ => .error (.unterminated place (place + byteLength (c :: cs)))
    else do
      let more ← unescapeFrom (place + c.utf8Size) cs
      return c :: more
termination_by cs => cs.length
decreasing_by
  · have := List.Sublist.length_le (List.dropWhile_sublist (l := cs) fun d => d != '&' && d != ';')
    rw [_h] at this
    simp only [List.length_cons] at this ⊢
    omega
  · simp

/-- Replaces the entities of a text. -/
def unescape (cs : List Char) : Except EntityError (List Char) := unescapeFrom 0 cs

end SqlFragments.Markup

import WidgetSync.Json.Literal

/-! Reading JSON text. Containers nest at most 127 levels, and the text holds one value and blanks around it. -/
namespace WidgetSync.Json

/-- How many containers may be nested. -/
def maxDepth : Nat := 127

namespace Reader

def isBlank (c : Char) : Bool := c = ' ' || c = '\n' || c = '\t' || c = '\r'

def skipBlank (cs : List Char) : List Char := cs.dropWhile isBlank

def hexDigit? (c : Char) : Option Nat :=
  if '0' ≤ c ∧ c ≤ '9' then some (c.toNat - '0'.toNat)
  else if 'a' ≤ c ∧ c ≤ 'f' then some (c.toNat - 'a'.toNat + 10)
  else if 'A' ≤ c ∧ c ≤ 'F' then some (c.toNat - 'A'.toNat + 10)
  else none

/-- The unit that four hexadecimal digits spell. -/
def hexUnit? (a b c d : Char) : Option Nat := do
  pure (((← hexDigit? a) * 16 + (← hexDigit? b)) * 256 + ((← hexDigit? c) * 16 + (← hexDigit? d)))

def isHighSurrogate (unit : Nat) : Bool := 0xD800 ≤ unit && unit < 0xDC00

def isLowSurrogate (unit : Nat) : Bool := 0xDC00 ≤ unit && unit < 0xE000

/-- The character that a backslash and this letter stand for. -/
def shortEscape? : Char → Option Char
  | '"' => some '"'
  | '\\' => some '\\'
  | '/' => some '/'
  | 'b' => some '\x08'
  | 'f' => some '\x0c'
  | 'n' => some '\n'
  | 'r' => some '\r'
  | 't' => some '\t'
  | _ => none

/-- Reads on to the closing quote; `acc` holds the characters so far, last one first. -/
def string? (acc : List Char) : List Char → Option (String × List Char)
  | [] => none
  | '"' :: rest => some (String.ofList acc.reverse, rest)
  | '\\' :: 'u' :: a :: b :: c :: d :: rest =>
    match hexUnit? a b c d with
    | none => none
    | some unit =>
      if isLowSurrogate unit then none
      else if isHighSurrogate unit then
        match rest with
        | '\\' :: 'u' :: e :: f :: g :: h :: rest =>
          match hexUnit? e f g h with
          | none => none
          | some low =>
            if isLowSurrogate low then
              string? (Char.ofNat (0x10000 + (unit - 0xD800) * 0x400 + (low - 0xDC00)) :: acc) rest
            else none
        | _ => none
      else string? (Char.ofNat unit :: acc) rest
  | '\\' :: c :: rest =>
    match shortEscape? c with
    | none => none
    | some c => string? (c :: acc) rest
  | c :: rest => if c < ' ' then none else string? (c :: acc) rest

def number? (cs : List Char) : Option (Number × List Char) := do
  let (literal, rest) ← Literal.read? cs
  let number ← literal.toNumber?
  pure (number, rest)

mutual

/-- Reads a value with at most `depth` nested containers. -/
def value? (depth : Nat) : (fuel : Nat) → List Char → Option (Json × List Char)
  | 0, _ => none
  | fuel + 1, cs =>
    match skipBlank cs with
    | 'n' :: 'u' :: 'l' :: 'l' :: rest => some (.null, rest)
    | 't' :: 'r' :: 'u' :: 'e' :: rest => some (.bool true, rest)
    | 'f' :: 'a' :: 'l' :: 's' :: 'e' :: rest => some (.bool false, rest)
    | '"' :: rest => (string? [] rest).map fun (s, rest) => (.str s, rest)
    | '[' :: rest =>
      if depth = 0 then none
      else
        match skipBlank rest with
        | ']' :: rest => some (.arr [], rest)
        | rest => (items? (depth - 1) fuel rest).map fun (items, rest) => (.arr items, rest)
    | '\x7b' :: rest =>
      if depth = 0 then none
      else
        match skipBlank rest with
        | '\x7d' :: rest => some (.obj [], rest)
        | rest => (members? (depth - 1) fuel rest).map fun (members, rest) => (.obj members, rest)
    | rest => (number? rest).map fun (n, rest) => (.num n, rest)
termination_by structural fuel => fuel

/-- Reads the items of an array that is not empty, up to its bracket. -/
def items? (depth : Nat) : (fuel : Nat) → List Char → Option (List Json × List Char)
  | 0, _ => none
  | fuel + 1, cs =>
    match value? depth fuel cs with
    | none => none
    | some (item, rest) =>
      match skipBlank rest with
      | ']' :: rest => some ([item], rest)
      | ',' :: rest => (items? depth fuel rest).map fun (items, rest) => (item :: items, rest)
      | _ => none
termination_by structural fuel => fuel

/-- Reads the members of an object that is not empty, up to its brace. -/
def members? (depth : Nat) : (fuel : Nat) → List Char → Option (List (String × Json) × List Char)
  | 0, _ => none
  | fuel + 1, cs =>
    match skipBlank cs with
    | '"' :: rest =>
      match string? [] rest with
      | none => none
      | some (key, rest) =>
        match skipBlank rest with
        | ':' :: rest =>
          match value? depth fuel rest with
          | none => none
          | some (value, rest) =>
            match skipBlank rest with
            | '\x7d' :: rest => some ([(key, value)], rest)
            | ',' :: rest =>
              (members? depth fuel rest).map fun (members, rest) => ((key, value) :: members, rest)
            | _ => none
        | _ => none
    | _ => none
termination_by structural fuel => fuel

end

/-- Enough fuel for a text: every second step takes a character. -/
def fuelFor (cs : List Char) : Nat := 2 * cs.length + 2

/-- Only blanks are left. -/
def isDone (cs : List Char) : Bool := (skipBlank cs).isEmpty

end Reader

def readChars? (cs : List Char) : Option Json :=
  match Reader.value? maxDepth (Reader.fuelFor cs) cs with
  | some (value, rest) => if Reader.isDone rest then some value else none
  | none => none

def read? (text : String) : Option Json := readChars? text.toList

end WidgetSync.Json

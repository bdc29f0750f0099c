import WidgetSync.Settings.Scalar
import WidgetSync.Text.Blank
import WidgetSync.Text.Unprintable
import WidgetSync.Json.Reader

/-! Settings in JSON5: JSON with comments, trailing commas, bare keys, single quotes and more ways to write numbers. -/
namespace WidgetSync.Json5

def isLineEnd (c : Char) : Bool := c = '\n' || c = '\r' || c = '\u2028' || c = '\u2029'

def isBlank (c : Char) : Bool := (Text.isBlank c && c ≠ '\x85') || c = '\uFEFF'

/-- What follows a block comment. -/
def closeComment? : List Char → Option (List Char)
  | [] => none
  | '*' :: '/' :: rest => some rest
  | _ :: rest => closeComment? rest

/-- Drops blanks and comments, at most `fuel` of them. An open block comment stays. -/
def skip : (fuel : Nat) → List Char → List Char
  | 0, cs => cs
  | fuel + 1, '/' :: '/' :: rest => skip fuel (rest.dropWhile fun c => !isLineEnd c)
  | fuel + 1, '/' :: '*' :: rest =>
    match closeComment? rest with
    | some rest => skip fuel rest
    | none => '/' :: '*' :: rest
  | fuel + 1, c :: rest => if isBlank c then skip fuel rest else c :: rest
  | _, [] => []

def skipAll (cs : List Char) : List Char := skip (cs.length + 1) cs

/-- Letters beyond ASCII are the printable characters there that are no blanks. -/
def isNameStart (c : Char) : Bool :=
  c.isAlpha || c = '$' || c = '_' || (0x80 ≤ c.toNat && !Text.isBlank c && !Text.isUnprintable c)

def isNamePart (c : Char) : Bool := isNameStart c || c.isDigit || c = '\u200C' || c = '\u200D'

def simpleEscape : Char → Char
  | 'b' => '\x08'
  | 'f' => '\x0c'
  | 'n' => '\n'
  | 'r' => '\r'
  | 't' => '\t'
  | 'v' => '\x0b'
  | '0' => '\x00'
  | c => c

/-- Reads on to the closing quote; `acc` holds the characters so far, last one first. -/
def string? (quote : Char) (acc : List Char) : List Char → Option (String × List Char)
  | [] => none
  | '\\' :: 'x' :: a :: b :: rest =>
    match Json.Reader.hexUnit? '0' '0' a b with
    | some n => string? quote (Char.ofNat n :: acc) rest
    | none => none
  | '\\' :: 'u' :: a :: b :: c :: d :: rest =>
    match Json.Reader.hexUnit? a b c d with
    | none => none
    | some unit =>
      if Json.Reader.isLowSurrogate unit then none
      else if Json.Reader.isHighSurrogate unit then
        match rest with
        | '\\' :: 'u' :: e :: f :: g :: h :: rest =>
          match Json.Reader.hexUnit? e f g h with
          | none => none
          | some low =>
            if Json.Reader.isLowSurrogate low then
              string? quote (Char.ofNat (0x10000 + (unit - 0xD800) * 0x400 + (low - 0xDC00)) :: acc) rest
            else none
        | _ => none
      else string? quote (Char.ofNat unit :: acc) rest
  | '\\' :: '\r' :: '\n' :: rest => string? quote acc rest
  | '\\' :: c :: rest =>
    if isLineEnd c then string? quote acc rest
    else if c = 'x' ∨ c = 'u' ∨ ('1' ≤ c ∧ c ≤ '9') then none
    else string? quote (simpleEscape c :: acc) rest
  | c :: rest =>
    if c = quote then some (String.ofList acc.reverse, rest)
    else if isLineEnd c ∨ c = '\\' then none
    else string? quote (c :: acc) rest

def name? (cs : List Char) : Option (String × List Char) :=
  match cs with
  | c :: _ =>
    if isNameStart c then some (String.ofList (cs.takeWhile isNamePart), cs.dropWhile isNamePart) else none
  | [] => none

def key? : List Char → Option (String × List Char)
  | '"' :: rest => string? '"' [] rest
  | '\'' :: rest => string? '\'' [] rest
  | cs => name? cs

/-- The characters that number literals are made of. -/
def isNumberChar (c : Char) : Bool := c.isAlphanum || c = '+' || c = '-' || c = '.' || c = '$' || c = '_'

/-- Hexadecimal digits make up a number of 32 bits. -/
def hexInt? (digits : List Char) : Option Tree := do
  let n : Nat ← (digits.mapM Json.Reader.hexDigit?).map fun ds => ds.foldl (fun n d => 16 * n + d) 0
  if digits.isEmpty ∨ 0x100000000 ≤ n then none else some (.int n)

/-- Digits before the point do not start with a needless zero. -/
def hasPlainWhole (cs : List Char) : Bool :=
  match cs with
  | '0' :: c :: _ => !c.isDigit
  | c :: _ => c.isDigit || c = '.'
  | [] => false

/-- A literal with a point or an exponent is a decimal that must be finite, any other one a whole number of 64 bits. -/
def unsigned? (negative : Bool) (cs : List Char) : Option Tree :=
  let sign (x : Float) : Tree := .float (if negative then -x else x)
  match cs with
  | ['I', 'n', 'f', 'i', 'n', 'i', 't', 'y'] => some (sign (1 / 0))
  | ['N', 'a', 'N'] => some (sign (0 / 0))
  | cs =>
    if !hasPlainWhole cs then none
    else if cs.any fun c => c = '.' || c = 'e' || c = 'E' then ((Tree.decimal? cs).filter Float.isFinite).map sign
    else (Tree.signedWord? (if negative then '-' :: cs else cs)).map .int

def number? (cs : List Char) : Option Tree :=
  match cs with
  | '0' :: 'x' :: digits | '0' :: 'X' :: digits => hexInt? digits
  | '-' :: cs => unsigned? true cs
  | '+' :: cs => unsigned? false cs
  | cs => unsigned? false cs

/-- A word or a number. -/
def literal? (cs : List Char) : Option (Tree × List Char) :=
  let rest := cs.dropWhile isNumberChar
  match String.ofList (cs.takeWhile isNumberChar) with
  | "null" => some (.nil, rest)
  | "true" => some (.bool true, rest)
  | "false" => some (.bool false, rest)
  | _ => (number? (cs.takeWhile isNumberChar)).map fun n => (n, rest)

mutual

def value? : (fuel : Nat) → List Char → Option (Tree × List Char)
  | 0, _ => none
  | fuel + 1, cs =>
    match skipAll cs with
    | '"' :: rest => (string? '"' [] rest).map fun (s, rest) => (.text s, rest)
    | '\'' :: rest => (string? '\'' [] rest).map fun (s, rest) => (.text s, rest)
    | '[' :: rest =>
      match skipAll rest with
      | ']' :: rest => some (.list [], rest)
      | rest => (items? fuel rest).map fun (items, rest) => (.list items, rest)
    | '\x7b' :: rest =>
      match skipAll rest with
      | '\x7d' :: rest => some (.table [], rest)
      | rest => (members? [] fuel rest).map fun (members, rest) => (.table members, rest)
    | rest => literal? rest
termination_by structural fuel => fuel

def items? : (fuel : Nat) → List Char → Option (List Tree × List Char)
  | 0, _ => none
  | fuel + 1, cs => do
    let (item, rest) ← value? fuel cs
    match skipAll rest with
    | ']' :: rest => some ([item], rest)
    | ',' :: rest =>
      match skipAll rest with
      | ']' :: rest => some ([item], rest)
      | rest => (items? fuel rest).map fun (items, rest) => (item :: items, rest)
    | _ => none
termination_by structural fuel => fuel

def members? (acc : List (String × Tree)) :
    (fuel : Nat) → List Char → Option (List (String × Tree) × List Char)
  | 0, _ => none
  | fuel + 1, cs => do
    let (key, rest) ← key? (skipAll cs)
    let ':' :: rest := skipAll rest | none
    let (value, rest) ← value? fuel rest
    let acc := Tree.putEntry key value acc
    match skipAll rest with
    | '\x7d' :: rest => some (acc, rest)
    | ',' :: rest =>
      match skipAll rest with
      | '\x7d' :: rest => some (acc, rest)
      | rest => members? acc fuel rest
    | _ => none
termination_by structural fuel => fuel

end

/-- The entries of a text that holds one object. -/
def read? (text : String) : Option (List (String × Tree)) :=
  match value? (Json.Reader.fuelFor text.toList) text.toList with
  | some (.table entries, rest) => if (skipAll rest).isEmpty then some entries else none
  | _ => none

end WidgetSync.Json5

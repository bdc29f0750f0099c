import WidgetSync.Settings.Scalar
import WidgetSync.Json.Reader

/-! Settings in TOML: `key = value` lines under table headings. No key is set twice, and no table is opened twice. -/
namespace WidgetSync.Toml

/-- How a table came to be, which decides who may extend it. -/
inductive Origin where
  /-- As the parent in a heading. -/
  | implied
  /-- By its own heading. -/
  | heading
  /-- By a dotted key. -/
  | dotted
  /-- As a value between braces. -/
  | inline
  deriving DecidableEq

/-- Tables under construction. -/
inductive Node where
  | value (tree : Tree)
  | table (origin : Origin) (entries : List (String × Node))
  /-- Tables that share one heading in double brackets; the last is open. -/
  | tables (items : List (List (String × Node)))

mutual

def Node.tree : Node → Tree
  | .value t => t
  | .table _ entries => .table (entryTrees entries)
  | .tables items => .list (itemTrees items)
termination_by structural n => n

def entryTrees : List (String × Node) → List (String × Tree)
  | [] => []
  | (k, n) :: rest => (k, n.tree) :: entryTrees rest
termination_by structural es => es

def itemTrees : List (List (String × Node)) → List Tree
  | [] => []
  | entries :: rest => .table (entryTrees entries) :: itemTrees rest
termination_by structural items => items

end

abbrev Entries := List (String × Node)

/-- Changes or adds the entry of a key. -/
def alter? (f : Option Node → Option Node) (key : String) : Entries → Option Entries
  | [] => (f none).map fun n => [(key, n)]
  | (k, n) :: rest =>
    if k = key then (f (some n)).map fun n => (k, n) :: rest
    else (alter? f key rest).map fun rest => (k, n) :: rest

/-- Changes the last table. -/
def alterLast? (f : Entries → Option Entries) : List Entries → Option (List Entries)
  | [] => none
  | [entries] => (f entries).map fun entries => [entries]
  | entries :: rest => (alterLast? f rest).map fun rest => entries :: rest

/-- Changes the entries of the table that the keys of a heading lead to. -/
def within? (f : Entries → Option Entries) : List String → Entries → Option Entries
  | [], entries => f entries
  | key :: keys, entries =>
    alter? (fun
      | none => (within? f keys []).map (.table .implied)
      | some (.table .inline _) | some (.value _) => none
      | some (.table origin inner) => (within? f keys inner).map (.table origin)
      | some (.tables items) => (alterLast? (within? f keys) items).map .tables) key entries

/-- Opens the table of a heading. -/
def openTable? (key : String) : Entries → Option Entries :=
  alter? (fun
    | none => some (.table .heading [])
    | some (.table .implied entries) => some (.table .heading entries)
    | _ => none) key

/-- Adds a table under a heading in double brackets. -/
def openItem? (key : String) : Entries → Option Entries :=
  alter? (fun
    | none => some (.tables [[]])
    | some (.tables items) => some (.tables (items ++ [[]]))
    | _ => none) key

/-- Sets a dotted key that is not set yet. -/
def assign? (value : Node) : List String → Entries → Option Entries
  | [], _ => none
  | [key], entries =>
    alter? (fun
      | none => some value
      | some _ => none) key entries
  | key :: keys, entries =>
    alter? (fun
      | none => (assign? value keys []).map (.table .dotted)
      | some (.table .dotted inner) => (assign? value keys inner).map (.table .dotted)
      | _ => none) key entries

def isBlank (c : Char) : Bool := c = ' ' || c = '\t'

def skipBlanks (cs : List Char) : List Char := cs.dropWhile isBlank

def isBareChar (c : Char) : Bool := c.isAlphanum || c = '_' || c = '-'

/-- Controls other than the tab stand in no text. -/
def isControl (c : Char) : Bool := (c < ' ' && c ≠ '\t') || c = '\x7f'

/-- What follows the comment at the front, if there is one. -/
def skipComment? : List Char → Option (List Char)
  | '#' :: rest =>
    let comment := rest.takeWhile (· ≠ '\n')
    let comment := if comment.getLast? = some '\r' then comment.dropLast else comment
    if comment.any isControl then none else some (rest.dropWhile (· ≠ '\n'))
  | cs => some cs

/-- Blanks, and a comment, up to the end of the line. -/
def endLine? (cs : List Char) : Option (List Char) := do
  match ← skipComment? (skipBlanks cs) with
  | [] => some []
  | '\n' :: rest | '\r' :: '\n' :: rest => some rest
  | _ => none

/-- Blanks, line ends and comments, at most `fuel` of them. -/
def skipLines? : (fuel : Nat) → List Char → Option (List Char)
  | 0, cs => some cs
  | fuel + 1, cs =>
    match skipBlanks cs with
    | '\n' :: rest | '\r' :: '\n' :: rest => skipLines? fuel rest
    | '#' :: rest => skipComment? ('#' :: rest) >>= skipLines? fuel
    | rest => some rest

def hexNumber? (digits : List Char) : Option Nat :=
  (digits.mapM Json.Reader.hexDigit?).map fun ds => ds.foldl (fun n d => 16 * n + d) 0

/-- The character of a code point that is none of a surrogate. -/
def scalar? (digits : List Char) : Option Char := do
  let n ← hexNumber? digits
  if h : n.isValidChar then some (Char.ofNatAux n h) else none

def simpleEscape? : Char → Option Char
  | 'b' => some '\x08'
  | 't' => some '\t'
  | 'n' => some '\n'
  | 'f' => some '\x0c'
  | 'r' => some '\r'
  | 'e' => some '\x1b'
  | '"' => some '"'
  | '\\' => some '\\'
  | _ => none

/-- What follows a backslash at the end of a line: the next character that is no blank. -/
def joinLines? (cs : List Char) : Option (List Char) :=
  match skipBlanks cs with
  | '\n' :: rest | '\r' :: '\n' :: rest =>
    some (rest.dropWhile fun c => isBlank c || c = '\n' || c = '\r')
  | _ => none

/-- Reads a text in double quotes, on one line or between tripled quotes on several; at most `fuel` characters. -/
def basic? (isLong : Bool) (acc : List Char) : (fuel : Nat) → List Char → Option (String × List Char)
  | 0, _ | _, [] => none
  | fuel + 1, '\\' :: cs =>
    match cs with
    | 'x' :: a :: b :: rest => scalar? [a, b] >>= fun c => basic? isLong (c :: acc) fuel rest
    | 'u' :: a :: b :: c :: d :: rest =>
      scalar? [a, b, c, d] >>= fun x => basic? isLong (x :: acc) fuel rest
    | 'U' :: a :: b :: c :: d :: e :: f :: g :: h :: rest =>
      scalar? [a, b, c, d, e, f, g, h] >>= fun x => basic? isLong (x :: acc) fuel rest
    | c :: rest =>
      match simpleEscape? c with
      | some x => basic? isLong (x :: acc) fuel rest
      | none => if isLong then joinLines? (c :: rest) >>= basic? isLong acc fuel else none
    | [] => none
  | fuel + 1, '"' :: rest =>
    if !isLong then some (String.ofList acc.reverse, rest)
    else
      match rest with
      | '"' :: '"' :: '"' :: '"' :: rest => some (String.ofList ('"' :: '"' :: acc).reverse, rest)
      | '"' :: '"' :: '"' :: rest => some (String.ofList ('"' :: acc).reverse, rest)
      | '"' :: '"' :: rest => some (String.ofList acc.reverse, rest)
      | rest => basic? isLong ('"' :: acc) fuel rest
  | fuel + 1, '\r' :: '\n' :: rest => if isLong then basic? isLong ('\n' :: acc) fuel rest else none
  | fuel + 1, c :: rest =>
    if isControl c && !(isLong && c = '\n') then none else basic? isLong (c :: acc) fuel rest

/-- Reads a text in single quotes, which knows no escapes. -/
def literal? (isLong : Bool) (acc : List Char) : List Char → Option (String × List Char)
  | [] => none
  | '\'' :: '\'' :: '\'' :: '\'' :: '\'' :: rest =>
    if isLong then some (String.ofList ('\'' :: '\'' :: acc).reverse, rest)
    else some (String.ofList acc.reverse, '\'' :: '\'' :: '\'' :: '\'' :: rest)
  | '\'' :: '\'' :: '\'' :: '\'' :: rest =>
    if isLong then some (String.ofList ('\'' :: acc).reverse, rest)
    else some (String.ofList acc.reverse, '\'' :: '\'' :: '\'' :: rest)
  | '\'' :: '\'' :: '\'' :: rest =>
    if isLong then some (String.ofList acc.reverse, rest)
    else some (String.ofList acc.reverse, '\'' :: '\'' :: rest)
  | '\'' :: rest =>
    if isLong then literal? isLong ('\'' :: acc) rest else some (String.ofList acc.reverse, rest)
  | '\r' :: '\n' :: rest => if isLong then literal? isLong ('\n' :: acc) rest else none
  | c :: rest =>
    if isControl c && !(isLong && c = '\n') then none else literal? isLong (c :: acc) rest

/-- The first line end of a long text does not count. -/
def dropFirstLineEnd : List Char → List Char
  | '\n' :: rest | '\r' :: '\n' :: rest => rest
  | cs => cs

/-- A text in quotes, if there is one at the front. -/
def quoted? : List Char → Option (Option (String × List Char))
  | '"' :: '"' :: '"' :: rest => some (basic? true [] (rest.length + 1) (dropFirstLineEnd rest))
  | '"' :: rest => some (basic? false [] (rest.length + 1) rest)
  | '\'' :: '\'' :: '\'' :: rest => some (literal? true [] (dropFirstLineEnd rest))
  | '\'' :: rest => some (literal? false [] rest)
  | _ => none

def simpleKey? (cs : List Char) : Option (String × List Char) :=
  match cs with
  | '"' :: '"' :: '"' :: _ | '\'' :: '\'' :: '\'' :: _ => none
  | '"' :: rest => basic? false [] (rest.length + 1) rest
  | '\'' :: rest => literal? false [] rest
  | cs =>
    match cs.takeWhile isBareChar with
    | [] => none
    | name => some (String.ofList name, cs.dropWhile isBareChar)

/-- Keys with points between them. -/
def key? : (fuel : Nat) → List Char → Option (List String × List Char)
  | 0, _ => none
  | fuel + 1, cs => do
    let (name, rest) ← simpleKey? (skipBlanks cs)
    match skipBlanks rest with
    | '.' :: rest => (key? fuel rest).map fun (names, rest) => (name :: names, rest)
    | rest => some ([name], rest)

/-- Digits with single underscores between them. -/
def ungroup? (isDigit : Char → Bool) : List Char → Option (List Char)
  | [] => none
  | [c] => if isDigit c then some [c] else none
  | c :: '_' :: rest => if isDigit c then (ungroup? isDigit rest).map (c :: ·) else none
  | c :: rest => if isDigit c then (ungroup? isDigit rest).map (c :: ·) else none

def radix? (base : Nat) (digits : List Char) : Option Tree := do
  let digits ← ungroup? (fun c => (Json.Reader.hexDigit? c).any (· < base)) digits
  let ds ← digits.mapM Json.Reader.hexDigit?
  let n := ds.foldl (fun n d => base * n + d) 0
  if n < 0x8000000000000000 then some (.int n) else none

def hasLeadingZero : List Char → Bool
  | '0' :: c :: _ => c.isDigit || c = '_'
  | _ => false

/-- A decimal: digits around a point, an exponent, or both. -/
def decimal? (cs : List Char) : Option Float := do
  let whole := cs.takeWhile fun c => c.isDigit || c = '_'
  let rest := cs.drop whole.length
  let (fraction, rest) ←
    match rest with
    | '.' :: rest =>
      let fraction := rest.takeWhile fun c => c.isDigit || c = '_'
      (ungroup? Char.isDigit fraction).map fun digits => ('.' :: digits, rest.drop fraction.length)
    | rest => some ([], rest)
  let exponent ←
    match rest with
    | [] => if fraction.isEmpty then none else some []
    | e :: '+' :: digits | e :: '-' :: digits =>
      if e = 'e' ∨ e = 'E' then (ungroup? Char.isDigit digits).map fun ds => e :: (rest.drop 1).take 1 ++ ds
      else none
    | e :: digits => if e = 'e' ∨ e = 'E' then (ungroup? Char.isDigit digits).map (e :: ·) else none
  if hasLeadingZero cs then none
  else Tree.decimal? ((← ungroup? Char.isDigit whole) ++ fraction ++ exponent)

def unsigned? (negative : Bool) (cs : List Char) : Option Tree :=
  let sign (x : Float) : Tree := .float (if negative then -x else x)
  match cs with
  | ['i', 'n', 'f'] => some (sign (1 / 0))
  | ['n', 'a', 'n'] => some (sign (0 / 0))
  | cs =>
    match ungroup? Char.isDigit cs with
    | some digits =>
      if hasLeadingZero cs then none
      else (Tree.signedWord? (if negative then '-' :: digits else digits)).map .int
    | none => (decimal? cs).map sign

def number? : List Char → Option Tree
  | '0' :: 'x' :: digits => radix? 16 digits
  | '0' :: 'o' :: digits => radix? 8 digits
  | '0' :: 'b' :: digits => radix? 2 digits
  | '-' :: cs => unsigned? true cs
  | '+' :: cs => unsigned? false cs
  | cs => unsigned? false cs

/-- A number of a fixed count of digits that lies in a range. -/
def field? (count low high : Nat) (cs : List Char) : Option (Nat × List Char) := do
  let digits := cs.take count
  let n ← Text.digits? digits
  if digits.length = count ∧ low ≤ n ∧ n ≤ high then some (n, cs.drop count) else none

def daysIn (year month : Nat) : Nat :=
  if month = 2 then if year % 4 = 0 ∧ (year % 100 ≠ 0 ∨ year % 400 = 0) then 29 else 28
  else if month = 4 ∨ month = 6 ∨ month = 9 ∨ month = 11 then 30
  else 31

def date? (cs : List Char) : Option (List Char) := do
  let (year, cs) ← field? 4 0 9999 cs
  let '-' :: cs := cs | none
  let (month, cs) ← field? 2 1 12 cs
  let '-' :: cs := cs | none
  let (_, cs) ← field? 2 1 (daysIn year month) cs
  pure cs

def time? (cs : List Char) : Option (List Char) := do
  let (_, cs) ← field? 2 0 23 cs
  let ':' :: cs := cs | none
  let (_, cs) ← field? 2 0 59 cs
  let ':' :: cs := cs | none
  let (_, cs) ← field? 2 0 60 cs
  match cs with
  | '.' :: fraction =>
    if (fraction.takeWhile Char.isDigit).isEmpty then none else some (fraction.dropWhile Char.isDigit)
  | cs => some cs

def isOffset : List Char → Bool
  | [] | ['Z'] | ['z'] => true
  | '+' :: cs | '-' :: cs =>
    match field? 2 0 23 cs with
    | some (_, ':' :: cs) => (field? 2 0 59 cs).any fun p => p.2.isEmpty
    | _ => false
  | _ => false

/-- A date, a time of day, or both. -/
def isMoment (cs : List Char) : Bool :=
  match date? cs with
  | some [] => true
  | some (c :: rest) => (c = 'T' || c = 't' || c = ' ') && (time? rest).any isOffset
  | none => (time? cs).any List.isEmpty

/-- The characters that words, numbers and moments are made of. -/
def isWordChar (c : Char) : Bool :=
  c.isAlphanum || c = '_' || c = '-' || c = '+' || c = '.' || c = ':'

/-- The word at the front. A date and a time may have a blank between them. -/
def spanWord (cs : List Char) : List Char × List Char :=
  let word := cs.takeWhile isWordChar
  match cs.dropWhile isWordChar with
  | ' ' :: c :: rest =>
    if c.isDigit && date? word = some [] then
      (word ++ ' ' :: (c :: rest).takeWhile isWordChar, (c :: rest).dropWhile isWordChar)
    else (word, ' ' :: c :: rest)
  | rest => (word, rest)

def word? (cs : List Char) : Option Tree :=
  match String.ofList cs with
  | "true" => some (.bool true)
  | "false" => some (.bool false)
  | s => number? cs <|> if isMoment cs then some (.text s) else none

mutual

def value? : (fuel : Nat) → List Char → Option (Node × List Char)
  | 0, _ => none
  | fuel + 1, cs =>
    match quoted? cs with
    | some found => found.map fun (s, rest) => (.value (.text s), rest)
    | none =>
      match cs with
      | '[' :: rest => (items? fuel rest).map fun (items, rest) => (.value (.list items), rest)
      | '\x7b' :: rest =>
        match skipBlanks rest with
        | '\x7d' :: rest => some (.table .inline [], rest)
        | rest => (members? [] fuel rest).map fun (entries, rest) => (.table .inline entries, rest)
      | cs =>
        let (word, rest) := spanWord cs
        (word? word).map fun t => (.value t, rest)
termination_by structural fuel => fuel

/-- The items of a list, over any lines, with or without a last comma. -/
def items? : (fuel : Nat) → List Char → Option (List Tree × List Char)
  | 0, _ => none
  | fuel + 1, cs => do
    match ← skipLines? cs.length cs with
    | ']' :: rest => some ([], rest)
    | cs =>
      let (item, rest) ← value? fuel cs
      match ← skipLines? rest.length rest with
      | ']' :: rest => some ([item.tree], rest)
      | ',' :: rest => (items? fuel rest).map fun (items, rest) => (item.tree :: items, rest)
      | _ => none
termination_by structural fuel => fuel

/-- The entries between braces, on one line. -/
def members? (acc : Entries) : (fuel : Nat) → List Char → Option (Entries × List Char)
  | 0, _ => none
  | fuel + 1, cs => do
    let (keys, rest) ← key? cs.length cs
    let '=' :: rest := rest | none
    let (value, rest) ← value? fuel (skipBlanks rest)
    let acc ← assign? value keys acc
    match skipBlanks rest with
    | '\x7d' :: rest => some (acc, rest)
    | ',' :: rest => members? acc fuel rest
    | _ => none
termination_by structural fuel => fuel

end

/-- Reads lines under the heading at hand, at most `fuel` of them. -/
def lines? (heading : List String) (root : Entries) : (fuel : Nat) → List Char → Option Entries
  | 0, _ => none
  | fuel + 1, cs => do
    match ← skipLines? cs.length cs with
    | [] => some root
    | '[' :: '[' :: cs =>
      let (keys, rest) ← key? cs.length cs
      let ']' :: ']' :: rest := rest | none
      let root ← within? (openItem? (keys.getLastD "")) keys.dropLast root
      lines? keys root fuel (← endLine? rest)
    | '[' :: cs =>
      let (keys, rest) ← key? cs.length cs
      let ']' :: rest := rest | none
      let root ← within? (openTable? (keys.getLastD "")) keys.dropLast root
      lines? keys root fuel (← endLine? rest)
    | cs =>
      let (keys, rest) ← key? cs.length cs
      let '=' :: rest := rest | none
      let (value, rest) ← value? (Json.Reader.fuelFor rest) (skipBlanks rest)
      let root ← within? (assign? value keys) heading root
      lines? heading root fuel (← endLine? rest)

def read? (text : String) : Option (List (String × Tree)) :=
  (lines? [] [] (text.length + 1) text.toList).map entryTrees

end WidgetSync.Toml

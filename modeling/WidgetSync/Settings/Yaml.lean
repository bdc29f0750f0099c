import WidgetSync.Settings.Scalar
import WidgetSync.Json.Reader

/-! Settings in YAML: block and flow collections, plain and quoted scalars, folded lines, one document.
Anchors, tags and explicit keys are not read. -/
namespace WidgetSync.Yaml

/-- Decimals of which the notation is YAML's own. -/
def isSpecialFloat (s : String) : Bool :=
  [".inf", ".Inf", ".INF", "+.inf", "+.Inf", "+.INF", "-.inf", "-.Inf", "-.INF", ".nan", ".NaN", ".NAN"].contains s

def based? (base : Nat) (digits : List Char) : Option Tree := do
  let ds ← digits.mapM fun c => (Json.Reader.hexDigit? c).filter (· < base)
  let n := ds.foldl (fun n d => base * n + d) 0
  if ds.isEmpty ∨ 0x8000000000000000 ≤ n then none else some (.int n)

/-- What a plain scalar denotes; a special decimal denotes nothing that settings can hold. -/
def plain? (cs : List Char) : Option Tree :=
  let based :=
    match cs with
    | '0' :: 'x' :: digits => based? 16 digits
    | '0' :: 'o' :: digits => based? 8 digits
    | _ => none
  match based with
  | some t => some t
  | none =>
    match String.ofList cs with
    | "" | "~" | "null" => some .nil
    | "true" | "True" | "TRUE" => some (.bool true)
    | "false" | "False" | "FALSE" => some (.bool false)
    | s =>
      if isSpecialFloat s then none
      else
        match Tree.signedWord? cs, cs.any Char.isDigit, Tree.float? cs with
        | some i, _, _ => some (.int i)
        | none, true, some x => some (.float x)
        | _, _, _ => some (.text s)

/-- A scalar as the key of a mapping. -/
def keyText? (source : List Char) : Tree → Option String
  | .text s => some s
  | .int i => some (String.ofList (Text.ofInt i))
  | .bool b => some (if b then "true" else "false")
  | .float _ => some (String.ofList source)
  | .nil | .list _ | .table _ => none

/-- A line that is not blank, without its comment. -/
structure Line where
  indent : Nat
  text : List Char

def isBlank (c : Char) : Bool := c = ' ' || c = '\t'

def skipBlanks (cs : List Char) : List Char := cs.dropWhile isBlank

def trimEnd (cs : List Char) : List Char := (cs.reverse.dropWhile fun c => isBlank c || c = '\r').reverse

/-- Where a scan of a line stands: the open quote, whether a token may start here, and how many brackets are open. -/
structure Scan where
  quote : Option Char
  atStart : Bool
  depth : Nat

def Scan.step (s : Scan) (c : Char) : Scan :=
  match s.quote with
  | some q => if c = q then ⟨none, false, s.depth⟩ else s
  | none =>
    if s.atStart && (c = '"' || c = '\'') then ⟨some c, false, s.depth⟩
    else if (s.atStart || 0 < s.depth) && (c = '[' || c = '\x7b') then ⟨none, true, s.depth + 1⟩
    else if 0 < s.depth && (c = ']' || c = '\x7d') then ⟨none, false, s.depth - 1⟩
    else ⟨none, isBlank c || (0 < s.depth && (c = ',' || c = ':')), s.depth⟩

/-- Cuts a comment off the end of a line, and tells how many brackets stay open. -/
def uncomment (s : Scan) (isAfterBlank : Bool) : List Char → List Char × Nat
  | [] => ([], s.depth)
  | '\\' :: c :: rest =>
    if s.quote = some '"' then
      let (kept, depth) := uncomment s false rest
      ('\\' :: c :: kept, depth)
    else
      let (kept, depth) := uncomment (s.step '\\') false (c :: rest)
      ('\\' :: kept, depth)
  | c :: rest =>
    if c = '#' ∧ isAfterBlank ∧ s.quote.isNone then ([], s.depth)
    else
      let (kept, depth) := uncomment (s.step c) (isBlank c) rest
      (c :: kept, depth)

/-- Joins lines while brackets are open; `begun` holds the one at hand. -/
def joinLines (begun : Option (List Char)) (depth : Nat) : List (List Char) → List (List Char)
  | [] => begun.toList
  | line :: rest =>
    let (kept, depth) := uncomment ⟨none, true, depth⟩ true line
    let kept := trimEnd kept
    let whole :=
      match begun with
      | none => kept
      | some before => before ++ ' ' :: skipBlanks kept
    if depth = 0 then whole :: joinLines none 0 rest else joinLines (some whole) depth rest

def splitLines (cs : List Char) : List (List Char) := (String.ofList cs).splitOn "\n" |>.map String.toList

/-- A tab does not indent. -/
def lineOf? (cs : List Char) : Option (Option Line) :=
  let text := cs.dropWhile (· = ' ')
  match skipBlanks text with
  | [] => some none
  | _ => if text.head? = some '\t' then none else some (some ⟨cs.length - text.length, text⟩)

/-- Lines of one document, whether a marker opened it. Blank lines, comments and directives may come before. -/
def documentLines? (lines : List (List Char)) : Option (Bool × List (List Char)) :=
  let lines := lines.takeWhile fun line => line.take 3 ≠ ['.', '.', '.']
  let isBlankLine := fun (line : List Char) => (skipBlanks line).head?.all (· = '#') || line.head? = some '%'
  let isMarker := fun (line : List Char) => line.take 3 = ['-', '-', '-'] && (line.drop 3).head?.all isBlank
  match lines.dropWhile isBlankLine with
  | [] => some (false, [])
  | first :: rest =>
    if rest.any isMarker then none
    else if isMarker first then some (true, ([' ', ' ', ' '] ++ first.drop 3) :: rest)
    else some (false, lines)

def simpleEscape? : Char → Option Char
  | '0' => some '\x00'
  | 'a' => some '\x07'
  | 'b' => some '\x08'
  | 't' | '\t' => some '\t'
  | 'n' => some '\n'
  | 'v' => some '\x0b'
  | 'f' => some '\x0c'
  | 'r' => some '\r'
  | 'e' => some '\x1b'
  | ' ' => some ' '
  | '"' => some '"'
  | '/' => some '/'
  | '\\' => some '\\'
  | 'N' => some '\x85'
  | '_' => some '\xA0'
  | 'L' => some '\u2028'
  | 'P' => some '\u2029'
  | _ => none

def char? (n : Nat) : Option Char := if h : n.isValidChar then some (Char.ofNatAux n h) else none

/-- Reads on to the closing double quote. -/
def double? (acc : List Char) : List Char → Option (String × List Char)
  | [] => none
  | '"' :: rest => some (String.ofList acc.reverse, rest)
  | '\\' :: 'x' :: a :: b :: rest =>
    match Json.Reader.hexUnit? '0' '0' a b >>= char? with
    | some c => double? (c :: acc) rest
    | none => none
  | '\\' :: 'u' :: a :: b :: c :: d :: rest =>
    match Json.Reader.hexUnit? a b c d >>= char? with
    | some c => double? (c :: acc) rest
    | none => none
  | '\\' :: c :: rest =>
    match simpleEscape? c with
    | some c => double? (c :: acc) rest
    | none => none
  | c :: rest => double? (c :: acc) rest

/-- Reads on to the closing single quote; two of them are one in the text. -/
def single? (acc : List Char) : List Char → Option (String × List Char)
  | [] => none
  | '\'' :: '\'' :: rest => single? ('\'' :: acc) rest
  | '\'' :: rest => some (String.ofList acc.reverse, rest)
  | c :: rest => single? (c :: acc) rest

/-- Characters that start no plain scalar. -/
def isIndicator (c : Char) : Bool :=
  [',', '[', ']', '\x7b', '\x7d', '#', '&', '*', '!', '|', '>', '\'', '"', '%', '@', '\x60'].contains c

/-- A dash, question mark or colon starts a plain scalar if something follows it directly. -/
def startsPlain (inFlow : Bool) : List Char → Bool
  | [] => false
  | c :: rest =>
    if c = '-' ∨ c = '?' ∨ c = ':' then
      match rest with
      | d :: _ => !isBlank d && !(inFlow && [',', '[', ']', '\x7b', '\x7d'].contains d)
      | [] => false
    else !isIndicator c

/-- A plain scalar up to a colon that ends a key, or in a flow up to its punctuation. -/
def spanPlain (inFlow : Bool) (acc : List Char) : List Char → List Char × List Char
  | [] => (trimEnd acc.reverse, [])
  | [':'] => (trimEnd acc.reverse, [':'])
  | ':' :: c :: rest =>
    if isBlank c ∨ (inFlow ∧ [',', '[', ']', '\x7b', '\x7d'].contains c) then
      (trimEnd acc.reverse, ':' :: c :: rest)
    else spanPlain inFlow (':' :: acc) (c :: rest)
  | c :: rest =>
    if inFlow ∧ [',', '[', ']', '\x7b', '\x7d'].contains c then (trimEnd acc.reverse, c :: rest)
    else spanPlain inFlow (c :: acc) rest

/-- A scalar at the front, with its text as a key. -/
def scalar? (inFlow : Bool) (cs : List Char) : Option ((Tree × Option String) × List Char) :=
  match cs with
  | '"' :: rest => (double? [] rest).map fun (s, rest) => ((.text s, some s), rest)
  | '\'' :: rest => (single? [] rest).map fun (s, rest) => ((.text s, some s), rest)
  | cs =>
    if startsPlain inFlow cs then do
      let (source, rest) := spanPlain inFlow [] cs
      let t ← plain? source
      pure ((t, keyText? source t), rest)
    else none

/-- Adds an entry whose key is new. -/
def addNew? (key : String) (value : Tree) (acc : List (String × Tree)) : Option (List (String × Tree)) :=
  if (acc.lookup key).isSome then none else some (acc ++ [(key, value)])

mutual

/-- A value within a flow collection. -/
def flow? : (fuel : Nat) → List Char → Option (Tree × List Char)
  | 0, _ => none
  | fuel + 1, cs =>
    match skipBlanks cs with
    | '[' :: rest => (flowItems? fuel rest).map fun (items, rest) => (.list items, rest)
    | '\x7b' :: rest => (flowEntries? [] fuel rest).map fun (entries, rest) => (.table entries, rest)
    | rest => (scalar? true rest).map fun ((t, _), rest) => (t, rest)
termination_by structural fuel => fuel

def flowItems? : (fuel : Nat) → List Char → Option (List Tree × List Char)
  | 0, _ => none
  | fuel + 1, cs =>
    match skipBlanks cs with
    | ']' :: rest => some ([], rest)
    | rest => do
      let (item, rest) ← flow? fuel rest
      match skipBlanks rest with
      | ']' :: rest => some ([item], rest)
      | ',' :: rest => (flowItems? fuel rest).map fun (items, rest) => (item :: items, rest)
      | _ => none
termination_by structural fuel => fuel

def flowEntries? (acc : List (String × Tree)) :
    (fuel : Nat) → List Char → Option (List (String × Tree) × List Char)
  | 0, _ => none
  | fuel + 1, cs =>
    match skipBlanks cs with
    | '\x7d' :: rest => some (acc, rest)
    | rest => do
      let ((_, key), rest) ← scalar? true rest
      let key ← key
      let (value, rest) ←
        match skipBlanks rest with
        | ':' :: rest =>
          match skipBlanks rest with
          | ',' :: _ | '\x7d' :: _ => some (Tree.nil, rest)
          | rest => flow? fuel rest
        | rest => some (Tree.nil, rest)
      let acc ← addNew? key value acc
      match skipBlanks rest with
      | '\x7d' :: rest => some (acc, rest)
      | ',' :: rest => flowEntries? acc fuel rest
      | _ => none
termination_by structural fuel => fuel

end

/-- The key of a mapping entry, and the text of its value. -/
def keyed? (cs : List Char) : Option (String × List Char) := do
  let ((_, key), rest) ← scalar? false cs
  match skipBlanks rest with
  | ':' :: rest => if rest.head?.all isBlank then pure (← key, skipBlanks rest) else none
  | _ => none

def isItem (cs : List Char) : Bool :=
  match cs with
  | ['-'] => true
  | '-' :: c :: _ => isBlank c
  | _ => false

/-- The lines with more than `indent` blanks in front. -/
def deeper (indent : Nat) (lines : List Line) : List Line := lines.takeWhile fun l => indent < l.indent

def afterDeeper (indent : Nat) (lines : List Line) : List Line := lines.dropWhile fun l => indent < l.indent

/-- A value on one line, onto which plain lines below it are folded. -/
def inline? (cs : List Char) (below : List Line) : Option Tree :=
  match cs with
  | '|' :: _ => some (.text (String.join (below.map fun l => String.ofList l.text ++ "\n")))
  | '>' :: _ => some (.text (" ".intercalate (below.map fun l => String.ofList l.text) ++ "\n"))
  | '[' :: _ | '\x7b' :: _ =>
    match flow? (Json.Reader.fuelFor cs) cs with
    | some (t, rest) => if (skipBlanks rest).isEmpty ∧ below.isEmpty then some t else none
    | none => none
  | cs =>
    match scalar? false (below.foldl (fun cs l => cs ++ ' ' :: l.text) cs) with
    | some ((t, _), rest) => if (skipBlanks rest).isEmpty then some t else none
    | none => none

mutual

/-- The node that lines of one block make up. -/
def block? : (fuel : Nat) → List Line → Option Tree
  | 0, _ => none
  | _, [] => some .nil
  | fuel + 1, first :: rest =>
    if isItem first.text then (sequence? first.indent fuel (first :: rest)).map .list
    else if (keyed? first.text).isSome then (mapping? first.indent [] fuel (first :: rest)).map .table
    else inline? first.text rest
termination_by structural fuel => fuel

def sequence? (indent : Nat) : (fuel : Nat) → List Line → Option (List Tree)
  | 0, _ => none
  | _, [] => some []
  | fuel + 1, first :: rest => do
    if first.indent ≠ indent ∨ !isItem first.text then none
    else
      let text := skipBlanks (first.text.drop 1)
      let own := if text.isEmpty then [] else [⟨indent + (first.text.length - text.length), text⟩]
      let item ← block? fuel (own ++ deeper indent rest)
      pure (item :: (← sequence? indent fuel (afterDeeper indent rest)))
termination_by structural fuel => fuel

def mapping? (indent : Nat) (acc : List (String × Tree)) : (fuel : Nat) → List Line → Option (List (String × Tree))
  | 0, _ => none
  | _, [] => some acc
  | fuel + 1, first :: rest => do
    if first.indent ≠ indent then none
    else
      let (key, text) ← keyed? first.text
      if text.isEmpty then
        let isSequence := rest.head?.any fun l => l.indent = indent && isItem l.text
        let belongs := fun (l : Line) => indent < l.indent || (isSequence && l.indent = indent && isItem l.text)
        let value ← block? fuel (rest.takeWhile belongs)
        mapping? indent (← addNew? key value acc) fuel (rest.dropWhile belongs)
      else
        let value ← inline? text (deeper indent rest)
        mapping? indent (← addNew? key value acc) fuel (afterDeeper indent rest)
termination_by structural fuel => fuel

end

/-- The entries of a text that holds one mapping, or nothing. -/
def read? (text : String) : Option (List (String × Tree)) := do
  let (isMarked, lines) ← documentLines? (splitLines text.toList)
  let lines ← (joinLines none 0 lines).mapM lineOf?
  let lines := lines.filterMap id
  if lines.isEmpty ∧ !isMarked then some []
  else
    match block? (2 * text.length + 2) lines with
    | some (.table entries) => some entries
    | _ => none

end WidgetSync.Yaml

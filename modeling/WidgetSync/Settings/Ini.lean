import WidgetSync.Settings.Tree
import WidgetSync.Text.Blank
import WidgetSync.Json.Reader

/-! Settings in sections of `key = value` lines. Comments start a line with `;` or `#`, values may be quoted, and a
backslash escapes. -/
namespace WidgetSync.Ini

/-- The character that four hexadecimal digits stand for. -/
def hexChar? (a b c d : Char) : Option Char :=
  (Json.Reader.hexUnit? a b c d).bind fun n => if h : n.isValidChar then some (Char.ofNatAux n h) else none

def simpleEscape : Char → List Char
  | '0' => ['\x00']
  | 'a' => ['\x07']
  | 'b' => ['\x08']
  | 't' => ['\t']
  | 'r' => ['\r']
  | 'n' => ['\n']
  | '\n' => []
  | c => [c]

/-- Reads up to a character that ends the text, or to the end of the input if that may end it. -/
def until? (isEnd : Char → Bool) (endsAtEof : Bool) (acc : List Char) :
    List Char → Option (List Char × List Char)
  | [] => if endsAtEof then some (acc.reverse, []) else none
  | '\\' :: 'x' :: a :: b :: c :: d :: rest =>
    match hexChar? a b c d with
    | none => none
    | some x => until? isEnd endsAtEof (x :: acc) rest
  | '\\' :: c :: rest =>
    if c = 'x' then none else until? isEnd endsAtEof ((simpleEscape c).reverse ++ acc) rest
  | c :: rest =>
    if isEnd c then some (acc.reverse, c :: rest)
    else if c = '\\' then none
    else until? isEnd endsAtEof (c :: acc) rest

def isLineEnd (c : Char) : Bool := c = '\n' || c = '\r'

def skipBlanks (cs : List Char) : List Char := cs.dropWhile fun c => Text.isBlank c && !isLineEnd c

/-- The text in quotes and what follows it on the line. -/
def quoted? (quote : Char) (cs : List Char) : Option (List Char × List Char) := do
  let (inside, rest) ← until? (· = quote) false [] cs
  let (after, rest) ← until? isLineEnd true [] (rest.drop 1)
  pure (inside ++ after, rest)

def value? (cs : List Char) : Option (List Char × List Char) :=
  match skipBlanks cs with
  | '"' :: cs => quoted? '"' cs
  | '\'' :: cs => quoted? '\'' cs
  | cs => until? isLineEnd true [] cs

structure Progress where
  /-- Finished sections and the entries outside of any. -/
  entries : List (String × Tree)
  /-- The section at hand. -/
  current : Option (String × List (String × Tree))

namespace Progress

/-- All entries, with the section at hand. -/
def finish (p : Progress) : List (String × Tree) :=
  match p.current with
  | none => p.entries
  | some (name, entries) => Tree.putEntry name (.table entries) p.entries

def add (p : Progress) (key : String) (value : Tree) : Progress :=
  match p.current with
  | none => { p with entries := Tree.putEntry key value p.entries }
  | some (name, entries) => { p with current := some (name, Tree.putEntry key value entries) }

end Progress

def trimmed (cs : List Char) : String := String.ofList (Text.trim cs)

/-- Reads statements, at most `fuel` of them. -/
def statements? (p : Progress) : (fuel : Nat) → List Char → Option (List (String × Tree))
  | 0, _ => none
  | fuel + 1, cs =>
    match Text.trimStart cs with
    | [] => some p.finish
    | ';' :: rest | '#' :: rest => statements? p fuel (rest.dropWhile fun c => !isLineEnd c)
    | '[' :: rest =>
      match until? (· = ']') false [] rest with
      | none => none
      | some (name, rest) => statements? ⟨p.finish, some (trimmed name, [])⟩ fuel (rest.drop 1)
    | cs =>
      match until? (fun c => c = '=' || c = ':') false [] cs with
      | none => none
      | some (key, rest) =>
        if trimmed key = "" then none
        else
          match value? (rest.drop 1) with
          | none => none
          | some (value, rest) => statements? (p.add (trimmed key) (.text (trimmed value))) fuel rest

def read? (text : String) : Option (List (String × Tree)) :=
  statements? ⟨[], none⟩ (text.length + 1) text.toList

end WidgetSync.Ini

import WidgetSync.Json.Reader

/-! Reading one record of known fields. Members under other names are passed over: their shape is checked, but
neither how deep they nest, nor how large their numbers are, nor how their surrogates pair up. -/
namespace WidgetSync.Json

namespace Reader

/-- Passes over a string, up to its closing quote. -/
def skipString? : List Char → Option (List Char)
  | [] => none
  | '"' :: rest => some rest
  | '\\' :: 'u' :: a :: b :: c :: d :: rest =>
    if (hexUnit? a b c d).isSome then skipString? rest else none
  | '\\' :: c :: rest => if (shortEscape? c).isSome then skipString? rest else none
  | c :: rest => if c < ' ' then none else skipString? rest

mutual

def skipValue? : (fuel : Nat) → List Char → Option (List Char)
  | 0, _ => none
  | fuel + 1, cs =>
    match skipBlank cs with
    | 'n' :: 'u' :: 'l' :: 'l' :: rest => some rest
    | 't' :: 'r' :: 'u' :: 'e' :: rest => some rest
    | 'f' :: 'a' :: 'l' :: 's' :: 'e' :: rest => some rest
    | '"' :: rest => skipString? rest
    | '[' :: rest =>
      match skipBlank rest with
      | ']' :: rest => some rest
      | rest => skipItems? fuel rest
    | '\x7b' :: rest =>
      match skipBlank rest with
      | '\x7d' :: rest => some rest
      | rest => skipMembers? fuel rest
    | rest => (Literal.read? rest).map (·.2)
termination_by structural fuel => fuel

def skipItems? : (fuel : Nat) → List Char → Option (List Char)
  | 0, _ => none
  | fuel + 1, cs =>
    match skipValue? fuel cs with
    | none => none
    | some rest =>
      match skipBlank rest with
      | ']' :: rest => some rest
      | ',' :: rest => skipItems? fuel rest
      | _ => none
termination_by structural fuel => fuel

def skipMembers? : (fuel : Nat) → List Char → Option (List Char)
  | 0, _ => none
  | fuel + 1, cs =>
    match skipBlank cs with
    | '"' :: rest =>
      match (skipString? rest).map skipBlank with
      | some (':' :: rest) =>
        match (skipValue? fuel rest).map skipBlank with
        | some ('\x7d' :: rest) => some rest
        | some (',' :: rest) => skipMembers? fuel rest
        | _ => none
      | _ => none
    | _ => none
termination_by structural fuel => fuel

end

/-- Reads the members of an object that is not empty and keeps those with a known name. -/
def knownMembers? (known : List String) :
    (fuel : Nat) → List Char → Option (List (String × Json) × List Char)
  | 0, _ => none
  | fuel + 1, cs =>
    match skipBlank cs with
    | '"' :: rest => do
      let (key, rest) ← string? [] rest
      let ':' :: rest := skipBlank rest | none
      let (found, rest) ←
        if known.contains key then
          (value? (maxDepth - 1) fuel rest).map fun (value, rest) => ([(key, value)], rest)
        else (skipValue? fuel rest).map fun rest => ([], rest)
      match skipBlank rest with
      | '\x7d' :: rest => some (found, rest)
      | ',' :: rest => (knownMembers? known fuel rest).map fun (members, rest) => (found ++ members, rest)
      | _ => none
    | _ => none

end Reader

/-- Reads a record with the known fields; a text that is no object is read as any other. -/
def readRecord? (known : List String) (text : String) : Option Json :=
  match Reader.skipBlank text.toList with
  | '\x7b' :: rest =>
    match Reader.skipBlank rest with
    | '\x7d' :: rest => if Reader.isDone rest then some (.obj []) else none
    | rest =>
      match Reader.knownMembers? known (Reader.fuelFor rest) rest with
      | some (members, rest) => if Reader.isDone rest then some (.obj members) else none
      | none => none
  | _ => read? text

end WidgetSync.Json

import WidgetSync.Text.Integer

/-! Command line options. An option takes its value from the same argument or from the next one; it takes effect when
the following option comes, or at the end. -/
namespace WidgetSync.CommandLine

/-- What the command line asks for. -/
structure Options where
  /-- The file to read the session from. -/
  session : Option String
  throttle : Option Nat
  /-- How many cells the notebook starts with. -/
  cells : Option Nat
  render : Bool
  deriving DecidableEq

namespace Options

def none : Options := ⟨.none, .none, .none, false⟩

/-- One cell, unless the command line says otherwise. -/
def cellCount (o : Options) : Nat := o.cells.getD 1

end Options

/-- Why the command line asks for no run. -/
inductive UsageError where
  | invalidValue
  | unknownArgument
  | valueValidation
  | tooManyValues
  | argumentConflict
  | displayHelp
  | displayVersion
  deriving DecidableEq, Repr

/-- Asking for help or for the version is no mistake. -/
def UsageError.exitCode : UsageError → Nat
  | .displayHelp | .displayVersion => 0
  | .invalidValue | .unknownArgument | .valueValidation | .tooManyValues | .argumentConflict => 2

/-- An option that takes a value. -/
inductive Setting where
  | session
  | throttle
  | cells
  deriving DecidableEq, Repr

/-- An option without a value. -/
inductive Switch where
  | render
  | help
  | version
  deriving DecidableEq, Repr

inductive Flag where
  | setting (setting : Setting)
  | switch (switch : Switch)
  deriving DecidableEq, Repr

namespace Flag

def ofLong? : String → Option Flag
  | "session" => some (.setting .session)
  | "msg-throttle" => some (.setting .throttle)
  | "cells" => some (.setting .cells)
  | "render" => some (.switch .render)
  | "help" => some (.switch .help)
  | "version" => some (.switch .version)
  | _ => none

def ofShort? : Char → Option Flag
  | 's' => some (.setting .session)
  | 'c' => some (.setting .cells)
  | 'h' => some (.switch .help)
  | 'V' => some (.switch .version)
  | _ => none

end Flag

/-- How an argument looks. -/
inductive Argument where
  /-- Two dashes: no options follow. -/
  | escape
  | long (name : List Char) (value : Option (List Char))
  | short (flags : List Char)
  | plain (text : List Char)
  deriving DecidableEq

namespace Argument

/-- Cuts at the first equals sign. -/
def splitEquals (cs : List Char) : List Char × Option (List Char) :=
  match cs.dropWhile (· ≠ '=') with
  | [] => (cs, none)
  | _ :: value => (cs.takeWhile (· ≠ '='), some value)

def ofChars : List Char → Argument
  | ['-', '-'] => .escape
  | '-' :: '-' :: cs =>
    let (name, value) := splitEquals cs
    .long name value
  | ['-'] => .plain ['-']
  | '-' :: cs => .short cs
  | cs => .plain cs

end Argument

/-- The options so far, and the one that has not taken effect yet, with its value once that is there. -/
structure Progress where
  options : Options
  pending : Option (Setting × Option (List Char))

namespace Progress

def start : Progress := ⟨.none, none⟩

/-- Sets an option that has not been set before. -/
def set (o : Options) (value : List Char) : Setting → Except UsageError Options
  | .session =>
    if o.session.isSome then .error .argumentConflict
    else if value.isEmpty then .error .invalidValue
    else .ok { o with session := some (String.ofList value) }
  | .throttle =>
    if o.throttle.isSome then .error .argumentConflict
    else
      match (Text.word? value).filter (1 ≤ ·) with
      | none => .error .valueValidation
      | some n => .ok { o with throttle := some n }
  | .cells =>
    if o.cells.isSome then .error .argumentConflict
    else
      match Text.word? value with
      | none => .error .valueValidation
      | some n => .ok { o with cells := some n }

/-- Lets the pending option take effect. -/
def resolve (p : Progress) : Except UsageError Options :=
  match p.pending with
  | none => .ok p.options
  | some (_, none) => .error .invalidValue
  | some (setting, some value) => set p.options value setting

def throwSwitch (o : Options) : Switch → Except UsageError Options
  | .render => if o.render then .error .argumentConflict else .ok { o with render := true }
  | .help => .error .displayHelp
  | .version => .error .displayVersion

/-- An option, perhaps with its value. -/
def takeSetting (p : Progress) (setting : Setting) (value : Option (List Char)) :
    Except UsageError Progress := do
  let options ← p.resolve
  match value with
  | none => pure ⟨options, some (setting, none)⟩
  | some value => pure ⟨← set options value setting, none⟩

def takeSwitch (p : Progress) (switch : Switch) : Except UsageError Progress := do
  pure ⟨← throwSwitch (← p.resolve) switch, none⟩

def takeLong (p : Progress) (name : List Char) (value : Option (List Char)) : Except UsageError Progress :=
  match Flag.ofLong? (String.ofList name) with
  | none => .error .unknownArgument
  | some (.setting setting) => p.takeSetting setting value
  | some (.switch switch) => if value.isSome then .error .tooManyValues else p.takeSwitch switch

/-- The value that follows a letter in its argument, perhaps after an equals sign. -/
def attached : List Char → Option (List Char)
  | [] => none
  | '=' :: value => some value
  | value => some value

/-- Letters in one argument, up to the first that takes the rest for its value. -/
def takeShort (p : Progress) : List Char → Except UsageError Progress
  | [] => .ok p
  | c :: rest =>
    match Flag.ofShort? c with
    | none => .error .unknownArgument
    | some (.setting setting) => p.takeSetting setting (attached rest)
    | some (.switch switch) => do (← p.takeSwitch switch).takeShort rest

/-- An argument that is no option is the value of the pending one. -/
def takePlain (p : Progress) (text : List Char) : Except UsageError Progress :=
  match p.pending with
  | some (setting, none) => .ok ⟨p.options, some (setting, some text)⟩
  | _ => .error .unknownArgument

/-- Takes arguments up to the last, or up to two dashes, which nothing may follow. -/
def run (p : Progress) : List String → Except UsageError Options
  | [] => p.resolve
  | argument :: rest =>
    match Argument.ofChars argument.toList with
    | .escape => if rest.isEmpty then p.resolve else .error .unknownArgument
    | .long name value => do (← p.takeLong name value).run rest
    | .short flags => do (← p.takeShort flags).run rest
    | .plain text => do (← p.takePlain text).run rest

end Progress

def parse (arguments : List String) : Except UsageError Options := Progress.start.run arguments

end WidgetSync.CommandLine

/-! Reading UTF-8, with the place of the first fault.
A lead byte fixes the length of its sequence and the range of its second byte, which excludes overlong forms,
surrogates and values above U+10FFFF. -/
namespace WidgetSync.Text.Utf8

inductive Fault where
  /-- The `length` bytes from `index` on start no character. -/
  | invalid (length index : Nat)
  /-- The input ends within the character that starts at `index`. -/
  | incomplete (index : Nat)
  deriving DecidableEq, Repr

def Fault.message : Fault → String
  | .invalid length index =>
    "invalid utf-8 sequence of " ++ toString length ++ " bytes from index " ++ toString index
  | .incomplete index => "incomplete utf-8 byte sequence from index " ++ toString index

/-- What may follow a lead byte: how many bytes, and the range of the first of them. -/
def followers? (lead : UInt8) : Option (Nat × UInt8 × UInt8) :=
  if 0xC2 ≤ lead ∧ lead ≤ 0xDF then some (1, 0x80, 0xBF)
  else if lead = 0xE0 then some (2, 0xA0, 0xBF)
  else if lead = 0xED then some (2, 0x80, 0x9F)
  else if 0xE1 ≤ lead ∧ lead ≤ 0xEF then some (2, 0x80, 0xBF)
  else if lead = 0xF0 then some (3, 0x90, 0xBF)
  else if 0xF1 ≤ lead ∧ lead ≤ 0xF3 then some (3, 0x80, 0xBF)
  else if lead = 0xF4 then some (3, 0x80, 0x8F)
  else none

/-- The payload of a lead byte with `count` followers. -/
def leadBits (lead : UInt8) (count : Nat) : Nat := lead.toNat % Nat.pow 2 (6 - count)

def isContinuation (b : UInt8) : Bool := 0x80 ≤ b && b ≤ 0xBF

/-- Reads `missing` continuation bytes onto `acc`; `seen` bytes of the character came before them. -/
def continuation (index seen acc : Nat) : (missing : Nat) → List UInt8 → Except Fault (Nat × List UInt8)
  | 0, rest => .ok (acc, rest)
  | _ + 1, [] => .error (.incomplete index)
  | n + 1, b :: rest =>
    if isContinuation b then continuation index (seen + 1) (64 * acc + b.toNat % 64) n rest
    else .error (.invalid seen index)

/-- Reads the character that starts with `lead` at `index`. -/
def character (index : Nat) (lead : UInt8) (rest : List UInt8) : Except Fault (Char × List UInt8) :=
  if lead < 0x80 then .ok (Char.ofNat lead.toNat, rest)
  else
    match followers? lead, rest with
    | none, _ => .error (.invalid 1 index)
    | some _, [] => .error (.incomplete index)
    | some (count, low, high), second :: rest =>
      if low ≤ second ∧ second ≤ high then
        (continuation index 2 (64 * leadBits lead count + second.toNat % 64) (count - 1) rest).map
          fun (code, rest) => (Char.ofNat code, rest)
      else .error (.invalid 1 index)

/-- Reads at most `fuel` characters, which is enough for as many bytes, onto those before `index`, last one first. -/
def charactersFrom (index : Nat) (acc : List Char) : (fuel : Nat) → List UInt8 → Except Fault (List Char)
  | 0, _ | _, [] => .ok acc.reverse
  | fuel + 1, lead :: rest =>
    match character index lead rest with
    | .error fault => .error fault
    | .ok (c, rest) => charactersFrom (index + c.utf8Size) (c :: acc) fuel rest

/-- The text that the bytes encode, or the first fault. -/
def decode (bytes : List UInt8) : Except Fault (List Char) :=
  charactersFrom 0 [] bytes.length bytes

end WidgetSync.Text.Utf8

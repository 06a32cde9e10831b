/-!
# Base64

Three bytes become four characters; a last group of one or two bytes is filled with `=`. The
reader is strict: it takes no other character, nothing after the padding, and no padding in front.
Padding after a complete group is skipped, and left-over bits of a short group are not looked at.
-/
namespace Receipt.Text.Base64

/-- The character of a six-bit number. -/
def digit (n : Nat) : Char :=
  if n < 26 then Char.ofNat (65 + n)
  else if n < 52 then Char.ofNat (71 + n)
  else if n < 62 then Char.ofNat (n - 4)
  else if n = 62 then '+' else '/'

def value? (c : Char) : Option Nat :=
  if 'A' ≤ c ∧ c ≤ 'Z' then some (c.toNat - 65)
  else if 'a' ≤ c ∧ c ≤ 'z' then some (c.toNat - 71)
  else if '0' ≤ c ∧ c ≤ '9' then some (c.toNat + 4)
  else if c = '+' then some 62
  else if c = '/' then some 63
  else none

def encode : List UInt8 → List Char
  | [] => []
  | [a] => [digit (a.toNat / 4), digit (a.toNat % 4 * 16), '=', '=']
  | [a, b] =>
    [digit (a.toNat / 4), digit (a.toNat % 4 * 16 + b.toNat / 16), digit (b.toNat % 16 * 4), '=']
  | a :: b :: c :: rest =>
    digit (a.toNat / 4) :: digit (a.toNat % 4 * 16 + b.toNat / 16)
      :: digit (b.toNat % 16 * 4 + c.toNat / 64) :: digit (c.toNat % 64) :: encode rest

inductive Error where
  | notAscii
  | leadingPadding
  | otherCharacter
  | excessData
  | brokenPadding
  | incorrectPadding
  /-- The last group has a single character. -/
  | loneCharacter (digits : Nat)
  deriving DecidableEq, Repr

def Error.message : Error → String
  | .notAscii => "string argument should contain only ASCII characters"
  | .leadingPadding => "Leading padding not allowed"
  | .otherCharacter => "Only base64 data is allowed"
  | .excessData => "Excess data after padding"
  | .brokenPadding => "Discontinuous padding not allowed"
  | .incorrectPadding => "Incorrect padding"
  | .loneCharacter digits =>
    "Invalid base64-encoded string: number of data characters (" ++ toString digits
      ++ ") cannot be 1 more than a multiple of 4"

/-- Where the reader stands in a group: the bits carried over from its characters so far. -/
inductive Group where
  | empty
  | one (bits : Nat)
  | two (bits : Nat)
  | three (bits : Nat)
  deriving DecidableEq, Repr

/-- The group after one more six-bit number, and the byte that it completes. -/
def Group.push : Group → Nat → Group × List UInt8
  | .empty, n => (.one n, [])
  | .one bits, n => (.two (n % 16), [.ofNat (bits * 4 + n / 16)])
  | .two bits, n => (.three (n % 4), [.ofNat (bits * 16 + n / 4)])
  | .three bits, n => (.empty, [.ofNat (bits * 64 + n)])

/-- How many `=` complete the group; an empty group takes none. -/
def Group.missing? : Group → Option Nat
  | .empty | .one _ => none
  | .two _ => some 2
  | .three _ => some 1

/-- The end of the text, reached with the group unfinished by padding. -/
def Group.finish (bytes : Nat) : Group → Except Error Unit
  | .empty => .ok ()
  | .one _ => .error (.loneCharacter (bytes / 3 * 4 + 1))
  | .two _ | .three _ => .error .incorrectPadding

/-- Reads on with `pads` padding characters seen and `bytes` bytes written. -/
def read (group : Group) (pads bytes : Nat) : List Char → Except Error (List UInt8)
  | [] => (group.finish bytes).map fun _ => []
  | '=' :: rest =>
    match group.missing? with
    | some need =>
      if need ≤ pads + 1 then
        if rest.isEmpty then .ok [] else .error .excessData
      else read group (pads + 1) bytes rest
    | none => read group (pads + 1) bytes rest
  | c :: rest =>
    match value? c with
    | none => .error .otherCharacter
    | some n =>
      if pads ≠ 0 then .error .brokenPadding
      else (read (group.push n).1 0 (bytes + (group.push n).2.length) rest).map
        ((group.push n).2 ++ ·)

def decode (cs : List Char) : Except Error (List UInt8) :=
  if cs.head? = some '=' then .error .leadingPadding else read .empty 0 0 cs

/-- Reads a text, of which every character has to be ASCII. -/
def decodeText (s : String) : Except Error (List UInt8) :=
  if s.toList.all (·.toNat < 128) then decode s.toList else .error .notAscii

theorem value?_digit : ∀ n < 64, value? (digit n) = some n := by decide

end Receipt.Text.Base64

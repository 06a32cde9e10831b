import Receipt.Text.Hex

/-!
# UTF-8

`encode` writes the shortest form of every character. `scan` reads one character, or says how many
bytes at the front belong to no character and why; `decode?` refuses the text at the first such
run and `decodeLossy` puts U+FFFD in the place of each.
-/
namespace Receipt.Text.Utf8

def encodeChar (c : Char) : List UInt8 :=
  let n := c.toNat
  if n < 0x80 then [.ofNat n]
  else if n < 0x800 then [.ofNat (0xC0 + n / 64), .ofNat (0x80 + n % 64)]
  else if n < 0x10000 then
    [.ofNat (0xE0 + n / 4096), .ofNat (0x80 + n / 64 % 64), .ofNat (0x80 + n % 64)]
  else
    [.ofNat (0xF0 + n / 262144), .ofNat (0x80 + n / 4096 % 64), .ofNat (0x80 + n / 64 % 64),
      .ofNat (0x80 + n % 64)]

def encode (cs : List Char) : List UInt8 := cs.flatMap encodeChar

inductive Reason where
  | start | continuation | truncated
  deriving DecidableEq, Repr

/-- What a first byte announces: the bits it adds and the bounds of each byte that follows. -/
def lead? (b : Nat) : Option (Nat × List (Nat × Nat)) :=
  if b < 0x80 then some (b, [])
  else if b < 0xC2 then none
  else if b < 0xE0 then some (b - 0xC0, [(0x80, 0xBF)])
  else if b = 0xE0 then some (0, [(0xA0, 0xBF), (0x80, 0xBF)])
  else if b = 0xED then some (13, [(0x80, 0x9F), (0x80, 0xBF)])
  else if b < 0xF0 then some (b - 0xE0, [(0x80, 0xBF), (0x80, 0xBF)])
  else if b = 0xF0 then some (0, [(0x90, 0xBF), (0x80, 0xBF), (0x80, 0xBF)])
  else if b < 0xF4 then some (b - 0xF0, [(0x80, 0xBF), (0x80, 0xBF), (0x80, 0xBF)])
  else if b = 0xF4 then some (4, [(0x80, 0x8F), (0x80, 0xBF), (0x80, 0xBF)])
  else none

/-- Reads the bytes that a first byte announced: the code point, or how many fitted and why the
next did not. -/
def follow (code : Nat) : List (Nat × Nat) → List UInt8 → Except (Nat × Reason) Nat
  | [], _ => .ok code
  | _ :: _, [] => .error (0, .truncated)
  | (low, high) :: bounds, b :: bs =>
    if low ≤ b.toNat ∧ b.toNat ≤ high then
      match follow (code * 64 + (b.toNat - 0x80)) bounds bs with
      | .ok n => .ok n
      | .error (k, why) => .error (k + 1, why)
    else .error (0, .continuation)

/-- One character and the count of its bytes after the first, or the count of bytes after the first
that spoil with it. -/
def scan (b : UInt8) (bs : List UInt8) : Except (Nat × Reason) (Char × Nat) :=
  match lead? b.toNat with
  | none => .error (0, .start)
  | some (bits, bounds) =>
    match follow bits bounds bs with
    | .ok n => .ok (Char.ofNat n, bounds.length)
    | .error e => .error e

/-- Reads all bytes, with U+FFFD for every run that belongs to no character. -/
def decodeLossy : List UInt8 → List Char
  | [] => []
  | b :: bs =>
    match scan b bs with
    | .ok (c, k) => c :: decodeLossy (bs.drop k)
    | .error (k, _) => '\uFFFD' :: decodeLossy (bs.drop k)
termination_by bs => bs.length
decreasing_by all_goals simp only [List.length_drop, List.length_cons]; omega

/-- The first run of bytes that belongs to no character. -/
structure Error where
  position : Nat
  first : UInt8
  width : Nat
  reason : Reason
  deriving DecidableEq, Repr

/-- Reads bytes of which every one belongs to a character. -/
def decodeFrom? (position : Nat) : List UInt8 → Except Error (List Char)
  | [] => .ok []
  | b :: bs =>
    match scan b bs with
    | .ok (c, k) => (decodeFrom? (position + 1 + k) (bs.drop k)).map (c :: ·)
    | .error (k, why) => .error ⟨position, b, k + 1, why⟩
termination_by bs => bs.length
decreasing_by simp only [List.length_drop, List.length_cons]; omega

def decode? (bytes : List UInt8) : Except Error (List Char) := decodeFrom? 0 bytes

def Reason.message : Reason → String
  | .start => "invalid start byte"
  | .continuation => "invalid continuation byte"
  | .truncated => "unexpected end of data"

def Error.message (e : Error) : String :=
  let place :=
    if e.width = 1 then
      "byte 0x" ++ String.ofList (Hex.digits 2 e.first.toNat) ++ " in position "
        ++ toString e.position
    else "bytes in position " ++ toString e.position ++ "-" ++ toString (e.position + e.width - 1)
  "'utf-8' codec can't decode " ++ place ++ ": " ++ e.reason.message

def ofString (s : String) : List UInt8 := encode s.toList

end Receipt.Text.Utf8

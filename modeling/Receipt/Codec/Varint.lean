import Receipt.Number.Reader

/-!
# Numbers of variable length

A number is written in groups of seven bits, the lowest first; every byte but the last is marked by
its highest bit. `encode` writes the fewest groups. `read` takes up to six groups from the front of
some bytes and gives the bytes behind them.
-/
namespace Receipt.Codec

namespace Varint

/-- The groups of a number. -/
def encode (n : Nat) : List UInt8 :=
  if n < 128 then [.ofNat n] else .ofNat (n % 128 + 128) :: encode (n / 128)

/-- Why a number is not written. -/
inductive WriteError where
  | negative (n : Int)
  /-- It is negative, and has too many digits for a message that shows it. -/
  | tooLong
  deriving DecidableEq, Repr

def WriteError.message : WriteError → String
  | .negative n => "Negative varint not supported: " ++ toString n
  | .tooLong => Number.unwritableMessage

/-- The refusal of a negative number. -/
def refusal (n : Int) : WriteError := if Number.fits n then .negative n else .tooLong

def encodeInt (n : Int) : Except WriteError (List UInt8) :=
  if n < 0 then .error (refusal n) else .ok (encode n.toNat)

inductive Error where
  | endOfData
  | tooLong
  deriving DecidableEq, Repr

def Error.message : Error → String
  | .endOfData => "Unexpected end of data reading varint"
  | .tooLong => "VarInt too long"

/-- Reads groups of which `more` may follow the first. -/
def readGroups : (more : Nat) → List UInt8 → Except Error (Nat × List UInt8)
  | _, [] => .error .endOfData
  | more, b :: bs =>
    if b < 128 then .ok (b.toNat, bs)
    else match more with
      | 0 => .error .tooLong
      | more + 1 =>
        match readGroups more bs with
        | .error e => .error e
        | .ok (high, rest) => .ok (b.toNat - 128 + 128 * high, rest)

/-- Reads a number of at most six groups. -/
def read (bytes : List UInt8) : Except Error (Nat × List UInt8) := readGroups 5 bytes

/-- Reads at an offset and gives the offset behind. A negative offset counts from the end, and
reading goes on at the start when it has passed the end. -/
def readAt (bytes : List UInt8) (offset : Int) : Except Error (Nat × Int) :=
  let there :=
    if offset < 0 then bytes.drop (bytes.length - offset.natAbs) ++ bytes
    else bytes.drop offset.toNat
  (read there).map fun (n, rest) => (n, offset + (there.length - rest.length : Nat))

theorem readGroups_length_lt {more n : Nat} {bytes rest : List UInt8}
    (h : readGroups more bytes = .ok (n, rest)) : rest.length < bytes.length := by
  induction bytes generalizing more n with
  | nil => simp [readGroups] at h
  | cons b bs ih =>
      unfold readGroups at h
      split at h
      · simp at h
        simp [h.2]
      · split at h
        · simp at h
        · next more =>
          cases hr : readGroups more bs with
          | error e => simp [hr] at h
          | ok r =>
            obtain ⟨high, after⟩ := r
            simp only [hr, Except.ok.injEq, Prod.mk.injEq] at h
            obtain ⟨-, rfl⟩ := h
            exact Nat.lt_succ_of_lt (ih hr)

theorem read_length_lt {n : Nat} {bytes rest : List UInt8} (h : read bytes = .ok (n, rest)) :
    rest.length < bytes.length := readGroups_length_lt h

end Varint
end Receipt.Codec

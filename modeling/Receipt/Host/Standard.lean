import Receipt.Command.Document
import Receipt.Time.Reader
import Receipt.Yaml.Reader

/-!
# A host

The host that the program runs on when nothing else is said: local time is UTC, YAML and date text
are read by the readers of this library, which know their usual forms, and years of two digits stay
close to a present year.
-/
namespace Receipt

namespace Yaml

theorem ScalarError.message_ne_empty (e : ScalarError) : e.message ≠ "" := by
  cases e with
  | range e =>
      cases e with
      | year shown => exact append_ne_empty_right _ (by decide)
      | _ => decide
  | offset east => exact append_ne_empty_right _ (by decide)
  | noDigits base => exact append_ne_empty_right _ (by decide)
  | tooLong digits => exact append_ne_empty_right _ (by decide)

theorem Error.message_ne_empty (name : String) (e : Error) : e.message name ≠ "" := by
  cases e with
  | scalar e => exact e.message_ne_empty
  | unprintable c position => exact append_ne_empty_left (append_ne_empty_right _ (by decide)) _
  | noCharacter code =>
      intro hempty
      by_cases hcode : code < 0x110000
      · exact absurd ((if_pos hcode).symm.trans hempty) (by decide)
      · exact absurd ((if_neg hcode).symm.trans hempty) (by decide)
  | malformed problem start place =>
      exact append_ne_empty_left (append_ne_empty_right _ (by decide)) _

end Yaml

namespace Host

/-- Whether the file ends within the bytes of one character, or in the first two bytes of what would
be a surrogate. -/
def isCutOff (e : Text.Utf8.Error) (bytes : List UInt8) : Bool :=
  match e.reason, bytes.drop e.position with
  | .truncated, _ => true
  | .continuation, [a, b] => a = 0xED && 0xA0 ≤ b && b ≤ 0xBF
  | _, _ => false

/-- YAML is read piece by piece: a character that the end of the file cuts off is looked at alone,
so its place counts from itself. -/
def pieceError (bytes : List UInt8) (e : Text.Utf8.Error) : Text.Utf8.Error :=
  if isCutOff e bytes then { e with position := 0 } else e

/-- The kind of a failure of the YAML reader. -/
def yamlKind : Yaml.Error → String
  | .scalar _ => "ValueError"
  | .noCharacter code => if code < 0x80000000 then "ValueError" else "OverflowError"
  | .unprintable _ _ => "ReaderError"
  | .malformed problem _ _ =>
    match problem with
    | .keyNotScalar | .noMeaning _ => "ConstructorError"
    | .moreDocuments => "ComposerError"
    | .inItems _ | .inMembers _ | .inMapping _ | .inSequence _ | .noContent _ _ | .noDocument _ =>
      "ParserError"
    | _ => "ScannerError"

def readYamlBytes (name : String) (bytes : List UInt8) : Except ReadFailure Value :=
  match Command.Document.text bytes with
  | .error e =>
    let e := pieceError bytes e
    .error ⟨"UnicodeDecodeError", e.message, true, fun _ => e.message_ne_empty⟩
  | .ok cs =>
    (Yaml.read? cs).mapError fun e =>
      ⟨yamlKind e, e.message name, e.reported, fun _ => e.message_ne_empty name⟩

@[reducible] def standard (presentYear : Nat) : Host where
  readYaml := readYamlBytes
  readDate := Time.Reader.read? presentYear
  zone := .utc
  memory := 1 <<< 36

end Host
end Receipt

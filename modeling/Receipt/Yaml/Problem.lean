import Receipt.Yaml.Cursor
import Receipt.Yaml.Scalar

/-!
# What is wrong with a YAML document

A document is malformed at a place, often with another place where the part in question started, or
it holds a scalar that looks like a value that does not exist, or a character that no document may
hold, or an escape that no character has. `Error.message` is the report of each for a document of a
given name.
-/
namespace Receipt.Yaml

inductive Problem where
  | badStart (c : Char)
  | valueHere
  | entryHere
  | noColon
  | openQuote
  | badEscape (c : Char)
  | badCode (digits : Nat) (found : Char)
  | inItems (found : String)
  | inMembers (found : String)
  | inMapping (found : String)
  | inSequence (found : String)
  | noContent (flow : Bool) (found : String)
  | keyNotScalar
  | separatorInQuotes
  | noMeaning (tag : String)
  | noDocument (found : String)
  | moreDocuments
  deriving DecidableEq, Repr

/-- What was being read when the problem was met. -/
def Problem.context : Problem → Option String
  | .badStart _ => some "while scanning for the next token"
  | .noColon => some "while scanning a simple key"
  | .openQuote | .separatorInQuotes => some "while scanning a quoted scalar"
  | .badEscape _ | .badCode _ _ => some "while scanning a double-quoted scalar"
  | .inItems _ => some "while parsing a flow sequence"
  | .inMembers _ => some "while parsing a flow mapping"
  | .inMapping _ => some "while parsing a block mapping"
  | .inSequence _ => some "while parsing a block collection"
  | .noContent flow _ => some ("while parsing a " ++ (if flow then "flow" else "block") ++ " node")
  | .keyNotScalar => some "while constructing a mapping"
  | .moreDocuments => some "expected a single document in the stream"
  | .valueHere | .entryHere | .noDocument _ | .noMeaning _ => none

def Problem.message : Problem → String
  | .badStart c =>
    "found character " ++ Text.Quoted.ofString (String.singleton c)
      ++ " that cannot start any token"
  | .valueHere => "mapping values are not allowed here"
  | .entryHere => "sequence entries are not allowed here"
  | .noColon => "could not find expected ':'"
  | .openQuote => "found unexpected end of stream"
  | .badEscape c =>
    "found unknown escape character " ++ Text.Quoted.ofString (String.singleton c)
  | .badCode digits found =>
    "expected escape sequence of " ++ toString digits ++ " hexdecimal numbers, but found "
      ++ Text.Quoted.ofString (String.singleton found)
  | .inItems found => "expected ',' or ']', but got '" ++ found ++ "'"
  | .inMembers found => "expected ',' or '\x7d', but got '" ++ found ++ "'"
  | .inMapping found | .inSequence found => "expected <block end>, but found '" ++ found ++ "'"
  | .noContent _ found => "expected the node content, but found '" ++ found ++ "'"
  | .keyNotScalar => "found unhashable key"
  | .separatorInQuotes => "found unexpected document separator"
  | .noMeaning tag => "could not determine a constructor for the tag '" ++ tag ++ "'"
  | .noDocument found => "expected '<document start>', but found '" ++ found ++ "'"
  | .moreDocuments => "but found another document"

inductive Error where
  /-- A problem, with the start of what was being read and the place where it went wrong. -/
  | malformed (problem : Problem) (start place : Mark)
  | scalar (e : ScalarError)
  /-- A character that no document may hold, and how many stand before it. -/
  | unprintable (c : Char) (position : Nat)
  /-- An escape with a code that is no character's. -/
  | noCharacter (code : Nat)

/-- The message about a document of the given name. -/
def Error.message (name : String) : Error → String
  | .scalar e => e.message
  | .unprintable c position =>
    "unacceptable character #x" ++ String.ofList (Text.Hex.digits 4 c.toNat)
      ++ ": special characters are not allowed\n  in \"" ++ name ++ "\", position "
      ++ toString position
  | .noCharacter code =>
    if code < 0x110000 then "surrogates not allowed" else "chr() arg not in range(0x110000)"
  | .malformed problem start place =>
    let context := match problem.context with
      | none => ""
      | some s =>
        s ++ "\n" ++ (if start = place then "" else start.message name ++ "\n")
    context ++ problem.message ++ "\n" ++ place.message name

/-- Whether commands report the failure; a code beyond 31 bits is a failure of another kind. -/
def Error.reported : Error → Bool
  | .noCharacter code => code < 0x80000000
  | _ => true

abbrev Reading := Except Error

def fail {α : Type} (problem : Problem) (start place : Mark) : Reading α :=
  .error (.malformed problem start place)

end Receipt.Yaml

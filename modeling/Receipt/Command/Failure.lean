import Receipt.Build
import Receipt.Codec.Envelope
import Receipt.Command.Document

/-!
# Failures of commands

Most failures are reported by the command that meets them. Those that are not, because they come
from values of a kind that nobody expected, end it abruptly.
-/
namespace Receipt.Command

inductive Failure where
  | document (e : DocumentError)
  | settings (e : Settings.Error)
  | layout (e : Layout.Error)
  | composition (e : Compose.Error)
  | item (e : Codec.Item.Error)
  /-- Elements, or the key of a section, that cannot be written. -/
  | unwritable (e : Unwritable)
  | base64 (e : Text.Base64.Error)
  | format (e : Codec.FormatError)
  /-- A batch needs someone to work on it. -/
  | noWorkers

namespace Failure

def file (e : FileError) : Failure := .document (.file e)

def message : Failure → String
  | .document e => e.message
  | .settings e => e.message
  | .layout e => e.message
  | .composition e => e.message
  | .item e => e.message
  | .unwritable e => e.message
  | .base64 e => e.message
  | .format e => e.message
  | .noWorkers => "max_workers must be greater than 0"

/-- Numbers with too many digits are reported, and what JSON does not know is not. -/
def unwritableReported : Unwritable → Bool
  | .tooLong => true
  | .notJson => false

def templateReported : Template.Error → Bool
  | .offsetTooLarge | .widthTooLong _ => true
  | .unwritable e => unwritableReported e
  | .tooWide | .outOfMemory | .patternNotText | .outsideCalendar => false

def documentReported : DocumentError → Bool
  | .file _ | .encoding _ | .json _ => true
  | .yaml e => e.reported

def reported : Failure → Bool
  | .base64 _ | .format _ | .noWorkers => true
  | .document e => documentReported e
  | .unwritable e => unwritableReported e
  | .settings e =>
    match e with
    | .nameNotText | .depthNotNumber => false
    | _ => true
  | .layout e =>
    match e with
    | .rowsNotList | .sectionNotMap => false
    | .unwritable e => unwritableReported e
    | _ => true
  | .composition e =>
    match e with
    | .endless => false
    | .template e => templateReported e
    | _ => true
  | .item e =>
    match e with
    | .unsupportedType _ | .flex _ | .flexText _ | .flexTooLong _ | .flexNotANumber => true
    | .unwritable e => unwritableReported e
    | _ => false

end Failure
end Receipt.Command

import Receipt.Command.Failure

/-!
# Reported failures have a message

A result counts as failed if there is any text of its failure. Every failure that a command reports
has one, `Failure.message_ne_empty`: each message has a part that is never empty, in front or behind.
-/
namespace Receipt

theorem Number.tooLongMessage_ne_empty (digits : Nat) : tooLongMessage digits ≠ "" :=
  append_ne_empty_right _ (by decide)

theorem Json.Error.message_ne_empty (e : Error) : e.message ≠ "" := by
  unfold message
  split
  · exact Number.tooLongMessage_ne_empty _
  · exact append_ne_empty_right _ (by decide)

namespace Command

theorem DocumentError.message_ne_empty {e : DocumentError}
    (h : Failure.documentReported e = true) : e.message ≠ "" := by
  cases e with
  | file e => exact append_ne_empty_left (append_ne_empty_right _ (by decide)) _
  | encoding e => exact e.message_ne_empty
  | json e => exact e.message_ne_empty
  | yaml e => exact e.message_ne_empty h

theorem unwritable_message_ne_empty {e : Unwritable} (h : Failure.unwritableReported e = true) :
    e.message ≠ "" := by
  cases e with
  | tooLong => exact append_ne_empty_right _ (by decide)
  | notJson => cases h

namespace Failure

theorem settings_message_ne_empty {e : Settings.Error} (h : (Failure.settings e).reported = true) :
    e.message ≠ "" := by
  cases e with
  | notMap => decide
  | nameNotText => cases h
  | depthNotNumber => cases h
  | unknownPolicy v =>
      rw [Settings.Error.message]
      split
      · exact append_ne_empty_right _ (by decide)
      · exact append_ne_empty_right _ (by decide)
  | depthNotPositive v =>
      rw [Settings.Error.message]
      split
      · exact append_ne_empty_left (by decide) _
      · exact append_ne_empty_right _ (by decide)

theorem layout_message_ne_empty {e : Layout.Error} (h : (Failure.layout e).reported = true) :
    e.message ≠ "" := by
  cases e with
  | rowNotMap kind => exact append_ne_empty_left (by decide) _
  | registryNotMap => decide
  | unwritable e => exact unwritable_message_ne_empty h
  | rowsNotList => cases h
  | sectionNotMap => cases h

theorem template_message_ne_empty {e : Template.Error} (h : templateReported e = true) :
    e.message ≠ "" := by
  cases e with
  | offsetTooLarge => decide
  | widthTooLong digits => exact Number.tooLongMessage_ne_empty digits
  | unwritable e => exact unwritable_message_ne_empty h
  | _ => cases h

theorem composition_message_ne_empty {e : Compose.Error}
    (h : (Failure.composition e).reported = true) : e.message ≠ "" := by
  cases e with
  | cyclic chain => exact append_ne_empty_left (by decide) _
  | tooDeep limit => exact append_ne_empty_right _ (by decide)
  | endless => cases h
  | template e => exact template_message_ne_empty h

theorem item_message_ne_empty {e : Codec.Item.Error} (h : (Failure.item e).reported = true) :
    e.message ≠ "" := by
  cases e with
  | unsupportedType type => exact append_ne_empty_left (by decide) _
  | flex e =>
      cases e with
      | negative n => exact append_ne_empty_left (by decide) _
      | tooLong => exact append_ne_empty_right _ (by decide)
  | flexText s => exact append_ne_empty_left (by decide) _
  | flexTooLong digits => exact Number.tooLongMessage_ne_empty digits
  | flexNotANumber => decide
  | unwritable e => exact unwritable_message_ne_empty h
  | _ => cases h

theorem base64_message_ne_empty (e : Text.Base64.Error) : e.message ≠ "" := by
  cases e with
  | loneCharacter digits => exact append_ne_empty_right _ (by decide)
  | _ => decide

theorem format_message_ne_empty (e : Codec.FormatError) : e.message ≠ "" := by
  cases e with
  | wrongVersion version => exact append_ne_empty_left (by decide) _
  | number e => cases e <;> decide
  | _ => decide

theorem message_ne_empty {e : Failure} (h : e.reported = true) : e.message ≠ "" := by
  cases e with
  | document e => exact DocumentError.message_ne_empty h
  | settings e => exact settings_message_ne_empty h
  | layout e => exact layout_message_ne_empty h
  | composition e => exact composition_message_ne_empty h
  | item e => exact item_message_ne_empty h
  | unwritable e => exact unwritable_message_ne_empty h
  | base64 e => exact base64_message_ne_empty e
  | format e => exact format_message_ne_empty e
  | noWorkers => decide

end Failure
end Command
end Receipt

import Stencil.Value.Basic

/-!
# Written forms of values

The text that a value leaves in the output.  Writing appends to the text written so far; what it
appends does not depend on that text.
-/

namespace Stencil
namespace Value

mutual

def write (out : String) : Value → String
  | null => out ++ "null"
  | bool true => out ++ "true"
  | bool false => out ++ "false"
  | int value => out ++ Integer.text value
  | str value => out ++ value
  | list items => writeItems "" (out ++ "[") items ++ "]"
  | map entries => writeEntries "" (out ++ "\x7b") entries ++ "\x7d"

def writeItems (separator out : String) : List Value → String
  | [] => out
  | item :: rest => writeItems ", " (write (out ++ separator) item) rest

def writeEntries (separator out : String) : List (String × Value) → String
  | [] => out
  | (key, value) :: rest =>
      writeEntries ", " (write (out ++ separator ++ key ++ "=") value) rest

end

def text (value : Value) : String :=
  write "" value

/-!
## What writing appends
-/

mutual

theorem write_append (front out : String) (value : Value) :
    write (front ++ out) value = front ++ write out value := by
  cases value with
  | null => rw [write, write, String.append_assoc]
  | bool value =>
      cases value with
      | true => rw [write, write, String.append_assoc]
      | false => rw [write, write, String.append_assoc]
  | int value => rw [write, write, String.append_assoc]
  | str value => rw [write, write, String.append_assoc]
  | list items =>
      rw [write, write, String.append_assoc, writeItems_append, String.append_assoc]
  | map entries =>
      rw [write, write, String.append_assoc, writeEntries_append, String.append_assoc]

theorem writeItems_append (separator front out : String) (items : List Value) :
    writeItems separator (front ++ out) items = front ++ writeItems separator out items := by
  cases items with
  | nil => rw [writeItems, writeItems]
  | cons item rest =>
      rw [writeItems, writeItems, String.append_assoc, write_append, writeItems_append]

theorem writeEntries_append (separator front out : String) (entries : List (String × Value)) :
    writeEntries separator (front ++ out) entries
      = front ++ writeEntries separator out entries := by
  cases entries with
  | nil => rw [writeEntries, writeEntries]
  | cons entry rest =>
      obtain ⟨key, value⟩ := entry
      rw [writeEntries, writeEntries, String.append_assoc, String.append_assoc,
        String.append_assoc, write_append, writeEntries_append, String.append_assoc,
        String.append_assoc]

end

theorem write_eq_append_text (out : String) (value : Value) :
    write out value = out ++ text value := by
  rw [text, ← write_append, String.append_empty]

end Value
end Stencil

import TraceReplay.Address
import TraceReplay.Event.Checked
import TraceReplay.Json.Equality
import TraceReplay.Json.Reader
import TraceReplay.Memory.Stack
import TraceReplay.Format
import TraceReplay.Locale
import TraceReplay.Text.Utf8
import TraceReplay.Wording.Template

/-! # Failures

Everything that keeps a request from being answered, with the text that reports it and the name of
its class.
-/

namespace TraceReplay

/-- Why a payload is no trace. Types are named as in messages. -/
inductive PayloadError where
  | unrecognized (type : String)
  | eventsNotList (format : Format)
  | notTrace (format : Format) (type : String)
  | notCountable (type : String)
  deriving DecidableEq

def PayloadError.message : PayloadError → String
  | unrecognized type => "Unrecognized payload format: " ++ type
  | eventsNotList format => "Invalid " ++ format.name ++ " trace: expected events[]"
  | notTrace format type =>
    "Invalid " ++ format.name ++ " trace: expected an event list, got " ++ type
  | notCountable type => "Expected an event list, got " ++ type

inductive FileError where
  | absent (name : String)
  | directory (name : String)
  | notDirectory (name : String)
  | nameTooLong (name : String)
  | nullCharacter
  | notUtf8 (fault : Text.Utf8.Fault)
  deriving DecidableEq

def FileError.message : FileError → String
  | absent name => "[Errno 2] No such file or directory: " ++ Text.quote name
  | directory name => "[Errno 21] Is a directory: " ++ Text.quote name
  | notDirectory name => "[Errno 20] Not a directory: " ++ Text.quote name
  | nameTooLong name => "[Errno 36] File name too long: " ++ Text.quote name
  | nullCharacter => "embedded null byte"
  | notUtf8 fault => fault.message

inductive Failure where
  | badMode (mode : Json)
  | modeWithoutFormat
  | unknownLocale (locale : Json)
  | unknownPhrase (key : Json)
  /-- A list or an object is given as a name. -/
  | noName (type : String)
  | missingSlot (slot : Wording.Slot)
  | width (error : Address.WidthError)
  /-- A size or an indentation does not fit eight bytes with a sign. -/
  | beyondEightBytes
  | payload (error : PayloadError)
  | noActiveFrame (error : NoActiveFrame)
  | notJson (error : Json.SyntaxError)
  | invalid (faults : List Checked.Fault)
  | codec (error : Bytes.CodecError)
  | file (error : FileError)
  deriving DecidableEq

namespace Failure

def message : Failure → String
  | badMode mode => mode.quoted ++ " is not a valid InterpretMode"
  | modeWithoutFormat => "No normalizer for mode: auto"
  | unknownLocale locale =>
    "Unknown locale: " ++ locale.display ++ ". Available: [" ++
      ", ".intercalate (Locale.all.map fun l => Text.quote l.code) ++ "]"
  | unknownPhrase key => key.quoted
  | noName type => "unhashable type: " ++ Text.quote type
  | missingSlot slot => Text.quote slot.key
  | width e => e.message
  | beyondEightBytes => "cannot fit 'int' into an index-sized integer"
  | payload e => e.message
  | noActiveFrame e => e.message
  | notJson e => e.message
  | invalid faults =>
    faults.length.repr ++ " validation error" ++ (if faults.length = 1 then "" else "s") ++
      " for Recipe"
  | codec e => e.message
  | file e => e.message

def name : Failure → String
  | badMode _ | modeWithoutFormat | unknownLocale _ => "ValueError"
  | width _ => "ValueError"
  | beyondEightBytes => "OverflowError"
  | unknownPhrase _ | missingSlot _ => "KeyError"
  | noName _ => "TypeError"
  | codec .beyondFourBytes => "OverflowError"
  | codec _ => "ValueError"
  | payload _ => "UnrecognizedPayloadError"
  | noActiveFrame _ => "NoActiveFrameError"
  | notJson _ => "JSONDecodeError"
  | invalid _ => "ValidationError"
  | file (.absent _) => "FileNotFoundError"
  | file (.directory _) => "IsADirectoryError"
  | file (.notDirectory _) => "NotADirectoryError"
  | file (.nameTooLong _) => "OSError"
  | file .nullCharacter => "ValueError"
  | file (.notUtf8 _) => "UnicodeDecodeError"

/-- Whether the program reports a failure. Names, slots and sizes that nothing may be called with
end it without a report. -/
def isReported : Failure → Bool
  | unknownPhrase _ | noName _ | missingSlot _ | beyondEightBytes => false
  | codec .beyondFourBytes => false
  | _ => true

end Failure

end TraceReplay

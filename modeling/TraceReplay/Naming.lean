import TraceReplay.Failure
import TraceReplay.Wording.Catalog

/-! # Locales and phrases by name

A locale and a phrase can be given by name. A name may be any JSON value but a list or an object;
only texts name anything.
-/

namespace TraceReplay

/-- The meaning of a name, given those of texts. Names without one fail. -/
def Json.named {α : Type} (meaning : String → Option α) (unknown : Json → Failure) (x : Json) :
    Except Failure α :=
  match x with
  | .list _ | .object _ => .error (.noName x.typeName)
  | .text s => (meaning s).elim (.error (unknown x)) .ok
  | _ => .error (unknown x)

def Locale.ofJson (x : Json) : Except Failure Locale :=
  x.named (fun code => Locale.all.find? (·.code = code)) .unknownLocale

@[simp] theorem Locale.ofJson_code (locale : Locale) :
    Locale.ofJson (.text locale.code) = .ok locale := by
  cases locale <;> rfl

namespace Wording

def Phrase.ofJson (x : Json) : Except Failure Phrase := x.named Phrase.ofKey? .unknownPhrase

/-- The description by the phrase of a key, with the texts that are given for its slots. -/
def sayKey (locale : Locale) (key : Json) (given : Slot → Option String) :
    Except Failure String := do
  let phrase ← Phrase.ofJson key
  ((phrase.template locale).fill? given).mapError .missingSlot

end Wording

end TraceReplay

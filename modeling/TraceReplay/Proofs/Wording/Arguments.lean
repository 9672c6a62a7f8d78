import TraceReplay.Naming

/-! # Phrases by key and by arguments

A description can be asked for by the key of its phrase and by the arguments that are at hand. The
slots of a phrase cover its template in every language, so such a description fails only if an
argument is missing.
-/

namespace TraceReplay.Wording

/-- The slots of a template, from left to right. -/
def Template.slots (t : Template) : List Slot :=
  t.filterMap fun
    | .words _ => none
    | .slot s => some s

theorem Template.fill?_congr {given given' : Slot → Option String} {t : Template}
    (h : ∀ s ∈ t.slots, given s = given' s) : t.fill? given = t.fill? given' := by
  induction t with
  | nil => rfl
  | cons p rest ih =>
    cases p with
    | words w => rw [fill?, fill?, ih h]
    | slot s =>
      have hs : given s = given' s := h s List.mem_cons_self
      have hrest := ih fun s' hs' => h s' (List.mem_cons_of_mem s hs')
      rw [fill?, fill?, hs, hrest]

/-- A template is filled if all of its slots are given. -/
theorem Template.fill?_eq_ok {given : Slot → Option String} {text : Slot → String} {t : Template}
    (h : ∀ s ∈ t.slots, given s = some (text s)) : t.fill? given = .ok (t.fill text) :=
  (fill?_congr h).trans (fill?_some text t)

namespace Phrase

/-- The slots that a phrase has arguments for. -/
def slots : Phrase → List Slot
  | .function | .note | .ast | .recipeStart | .recipeEnd => []
  | .unknownEvent | .malformedEvent => [.tag]
  | .initSuffix => [.value]
  | .enter _ | .exit _ => [.fn]
  | .declare _ => [.name, .type, .size, .addr, .init]
  | .assign _ => [.name, .value]
  | .allocate _ => [.size, .addr, .label]
  | .release _ => [.addr]
  | .output _ => [.text]
  | .storeHeap => [.addr, .count]
  | .storeLocal => [.name, .addr]
  | .storeNowhere => [.addr]
  | .storeByte => [.addr, .offset, .byte]
  | .recipeLocal => [.name]
  | .recipeHeap => [.addr]
  | .recipePrint => [.text]

theorem slots_template_subset (phrase : Phrase) (locale : Locale) :
    (phrase.template locale).slots ⊆ phrase.slots := by
  have hall : ∀ phrase ∈ all, (phrase.template locale).slots ⊆ phrase.slots := by
    cases locale <;> decide
  exact hall phrase phrase.mem_all

theorem ofKey?_key (phrase : Phrase) : ofKey? phrase.key = some phrase := by
  have hall : ∀ phrase ∈ all, ofKey? phrase.key = some phrase := by decide
  exact hall phrase phrase.mem_all

theorem sayKey_key (phrase : Phrase) (locale : Locale) (given : Slot → Option String) :
    sayKey locale (.text phrase.key) given =
      ((phrase.template locale).fill? given).mapError .missingSlot := by
  have hphrase : Phrase.ofJson (.text phrase.key) = .ok phrase := by
    simp [Phrase.ofJson, Json.named, ofKey?_key]
  rw [sayKey, hphrase]
  rfl

theorem sayKey_key_eq_ok {phrase : Phrase} {given : Slot → Option String} {text : Slot → String}
    (h : phrase.slots.map given = phrase.slots.map fun s => some (text s)) (locale : Locale) :
    sayKey locale (.text phrase.key) given = .ok (phrase.say locale text) := by
  have hfill : ∀ s ∈ (phrase.template locale).slots, given s = some (text s) :=
    fun s hs => List.map_inj_left.1 h s (phrase.slots_template_subset locale hs)
  rw [sayKey_key, Template.fill?_eq_ok hfill]
  rfl

/-- The description by a phrase, which is looked up by its key and given these arguments. -/
def sayWith (phrase : Phrase) (locale : Locale) (arguments : List (Slot × String)) :
    Except Failure String :=
  sayKey locale (.text phrase.key) fun s => arguments.lookup s

/-- A phrase that is given an argument for each of its slots is said. -/
theorem sayWith_eq_ok {phrase : Phrase} {arguments : List (Slot × String)} {text : Slot → String}
    (h : (phrase.slots.map fun s => arguments.lookup s) = phrase.slots.map fun s => some (text s))
    (locale : Locale) : phrase.sayWith locale arguments = .ok (phrase.say locale text) :=
  sayKey_key_eq_ok h locale

end Phrase

end TraceReplay.Wording

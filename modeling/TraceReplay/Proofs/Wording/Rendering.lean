import TraceReplay.Proofs.Wording.Arguments
import TraceReplay.Replay.Effect
import TraceReplay.Wording.Named

/-! # Rendering in one pass

A template is written as a text in which each slot stands as its key in braces. Its description is
that text with all placeholders replaced at once: the text is read from left to right, every
placeholder is left behind as soon as its argument is put in, and no argument is read.
-/

namespace TraceReplay.Wording

def Template.source : Template → List Char
  | [] => []
  | .words s :: rest => s.toList ++ source rest
  | .slot s :: rest => '\x7b' :: (s.key.toList ++ '\x7d' :: source rest)

example : String.ofList ((Phrase.declare .wasm).template .en).source =
    "local \x7bname\x7d (\x7btype\x7d) allocated @ \x7baddr\x7d\x7binit\x7d" := by
  decide

/-- Text without the characters that mark placeholders. -/
def IsPlain (cs : List Char) : Prop := ∀ c ∈ cs, c ≠ '\x7b' ∧ c ≠ '\x7d'

-- Another instance, for statements about all characters there are, would go through them all.
instance (cs : List Char) : Decidable (IsPlain cs) :=
  List.decidableBAll (fun c => c ≠ '\x7b' ∧ c ≠ '\x7d') cs

theorem isPlain_cons {c : Char} {cs : List Char} :
    IsPlain (c :: cs) ↔ (c ≠ '\x7b' ∧ c ≠ '\x7d') ∧ IsPlain cs :=
  List.forall_mem_cons

theorem isPlain_ofList {cs : List Char} (h : IsPlain cs) : IsPlain (String.ofList cs).toList := by
  rwa [String.toList_ofList]

theorem IsPlain.append_closed_inj {xs ys xs' ys' : List Char} (h : IsPlain xs) (h' : IsPlain xs')
    (heq : xs ++ '\x7d' :: ys = xs' ++ '\x7d' :: ys') : xs = xs' ∧ ys = ys' := by
  induction xs generalizing xs' with
  | nil =>
    cases xs' with
    | nil => exact ⟨rfl, List.tail_eq_of_cons_eq heq⟩
    | cons c cs => exact absurd (List.head_eq_of_cons_eq heq).symm (isPlain_cons.1 h').1.2
  | cons c cs ih =>
    cases xs' with
    | nil => exact absurd (List.head_eq_of_cons_eq heq) (isPlain_cons.1 h).1.2
    | cons c' cs' =>
      obtain ⟨rfl, htail⟩ := List.cons_eq_cons.1 heq
      obtain ⟨rfl, hys⟩ := ih (isPlain_cons.1 h).2 (isPlain_cons.1 h').2 htail
      exact ⟨rfl, hys⟩

/-- What the replacement of all placeholders at once makes of a text, from the arguments that are
given by name. It ends with the name of the first placeholder that has no argument. -/
inductive Renders (given : String → Option String) : List Char → Except String String → Prop
  | nil : Renders given [] (.ok "")
  | copy {c : Char} {source : List Char} {outcome : Except String String}
      (hc : c ≠ '\x7b' ∧ c ≠ '\x7d') (hrest : Renders given source outcome) :
      Renders given (c :: source) (outcome.map (String.singleton c ++ ·))
  | place {name text : String} {source : List Char} {outcome : Except String String}
      (hname : IsPlain name.toList) (hgiven : given name = some text)
      (hrest : Renders given source outcome) :
      Renders given ('\x7b' :: (name.toList ++ '\x7d' :: source)) (outcome.map (text ++ ·))
  | missing {name : String} {source : List Char} (hname : IsPlain name.toList)
      (hgiven : given name = none) :
      Renders given ('\x7b' :: (name.toList ++ '\x7d' :: source)) (.error name)

namespace Renders

variable {given : String → Option String} {source : List Char} {outcome : Except String String}

theorem nil_iff : Renders given [] outcome ↔ outcome = .ok "" := by
  constructor
  · rintro ⟨⟩
    rfl
  · rintro rfl
    exact .nil

theorem cons_iff {c : Char} (hc : c ≠ '\x7b' ∧ c ≠ '\x7d') :
    Renders given (c :: source) outcome ↔
      ∃ o, Renders given source o ∧ outcome = o.map (String.singleton c ++ ·) := by
  constructor
  · intro h
    cases h with
    | copy _ hrest => exact ⟨_, hrest, rfl⟩
    | place | missing => exact absurd rfl hc.1
  · rintro ⟨o, hrest, rfl⟩
    exact .copy hc hrest

theorem append_iff {cs : List Char} (h : IsPlain cs) :
    Renders given (cs ++ source) outcome ↔
      ∃ o, Renders given source o ∧ outcome = o.map (String.ofList cs ++ ·) := by
  induction cs generalizing outcome with
  | nil =>
    have hmap (o : Except String String) : o.map (String.ofList [] ++ ·) = o := by
      cases o <;> simp [Except.map]
    simp only [hmap, List.nil_append, exists_eq_right']
  | cons c cs ih =>
    have hmap (o : Except String String) :
        (o.map (String.ofList cs ++ ·)).map (String.singleton c ++ ·) =
          o.map (String.ofList (c :: cs) ++ ·) := by
      cases o with
      | error e => rfl
      | ok t => simp [Except.map, ← String.toList_inj]
    rw [List.cons_append, cons_iff (isPlain_cons.1 h).1]
    simp only [ih (isPlain_cons.1 h).2]
    constructor
    · rintro ⟨_, ⟨o, ho, rfl⟩, rfl⟩
      exact ⟨o, ho, hmap o⟩
    · rintro ⟨o, ho, rfl⟩
      exact ⟨_, ⟨o, ho, rfl⟩, (hmap o).symm⟩

theorem placeholder_iff {name : String} (h : IsPlain name.toList) :
    Renders given ('\x7b' :: (name.toList ++ '\x7d' :: source)) outcome ↔
      match given name with
      | some text => ∃ o, Renders given source o ∧ outcome = o.map (text ++ ·)
      | none => outcome = .error name := by
  constructor
  · generalize hall : '\x7b' :: (name.toList ++ '\x7d' :: source) = all
    intro hrenders
    cases hrenders with
    | nil => cases hall
    | copy hc _ => exact absurd (List.head_eq_of_cons_eq hall).symm hc.1
    | place hname hgiven hrest =>
      obtain ⟨hchars, rfl⟩ := h.append_closed_inj hname (List.tail_eq_of_cons_eq hall)
      obtain rfl := String.toList_inj.1 hchars
      rw [hgiven]
      exact ⟨_, hrest, rfl⟩
    | missing hname hgiven =>
      obtain ⟨hchars, -⟩ := h.append_closed_inj hname (List.tail_eq_of_cons_eq hall)
      obtain rfl := String.toList_inj.1 hchars
      rw [hgiven]
  · cases hgiven : given name with
    | none =>
      rintro rfl
      exact .missing h hgiven
    | some text =>
      rintro ⟨o, hrest, rfl⟩
      exact .place h hgiven hrest

end Renders

def Piece.text : Piece → String
  | words s => s
  | slot s => s.key

theorem Template.renders_source_iff {t : Template} (h : ∀ p ∈ t, IsPlain p.text.toList)
    {given : String → Option String} {outcome : Except String String} :
    Renders given t.source outcome ↔
      outcome = (t.fill? fun s => given s.key).mapError Slot.key := by
  induction t generalizing outcome with
  | nil => exact Renders.nil_iff
  | cons p rest ih =>
    obtain ⟨hp, hrest⟩ := List.forall_mem_cons.1 h
    have hmap (text : String) (o : Except Slot String) :
        (o.mapError Slot.key).map (text ++ ·) = ((text ++ ·) <$> o).mapError Slot.key := by
      cases o <;> rfl
    cases p with
    | words w =>
      have hw : IsPlain w.toList := hp
      rw [source, Renders.append_iff hw, fill?]
      simp only [ih hrest, exists_eq_left, String.ofList_toList, hmap]
    | slot s =>
      have hkey : IsPlain s.key.toList := hp
      rw [source, Renders.placeholder_iff hkey, fill?]
      cases given s.key with
      | none => rfl
      | some text => simp only [ih hrest, exists_eq_left, hmap]

theorem Slot.isPlain_key (s : Slot) : IsPlain s.key.toList := by
  cases s <;> exact isPlain_ofList (by decide)

-- The texts are compared as lists of characters: to decide on their bytes takes far longer.
set_option maxRecDepth 2000 in
theorem Phrase.isPlain_of_mem_template (phrase : Phrase) (locale : Locale) :
    ∀ p ∈ phrase.template locale, IsPlain p.text.toList := by
  have hall : ∀ phrase ∈ all, ∀ p ∈ phrase.template locale, IsPlain p.text.toList := by
    cases locale <;>
      simp only [all, shared, template, english, bengali, List.map_cons, List.map_nil,
        List.cons_append, List.nil_append, List.forall_mem_cons, List.not_mem_nil, false_imp_iff,
        implies_true, Piece.text, Slot.isPlain_key, and_true, true_and]
    all_goals
      repeat' apply And.intro
      all_goals exact isPlain_ofList (by decide)
  exact hall phrase phrase.mem_all

theorem Slot.key_injective : Function.Injective Slot.key := by
  intro a b h
  cases a <;> cases b <;> first | rfl | exact absurd h (by decide)

namespace Arguments

theorem clash?_eq_none_iff {arguments : Arguments} :
    arguments.clash? = none ↔ ∀ a ∈ arguments, a.1 ∉ taken := by
  simp [clash?]

theorem clash?_append_cons {before after : Arguments} {name : String} {x : Datum}
    (hbefore : ∀ a ∈ before, a.1 ∉ taken) (hname : name ∈ taken) :
    clash? (before ++ (name, x) :: after) = some name := by
  have hnone : (before.map Prod.fst).find? (· ∈ taken) = none := clash?_eq_none_iff.2 hbefore
  rw [clash?, List.map_append, List.find?_append, hnone, List.map_cons, Option.none_or,
    List.find?_cons_of_pos (by simpa using hname)]

end Arguments

variable {locale : Locale} {phrase : Phrase} {arguments : Arguments}

/-- A call with names that are free fills the template of the phrase. -/
theorem sayNamed_key (h : ∀ a ∈ arguments, a.1 ∉ Arguments.taken) :
    sayNamed locale (.text phrase.key) arguments =
      (((phrase.template locale).fill? fun s => arguments.text? s.key).mapError
        .missingSlot).mapError .failure := by
  rw [sayNamed, Arguments.clash?_eq_none_iff.2 h, phrase.sayKey_key]

theorem sayNamed_eq_ok_iff (h : ∀ a ∈ arguments, a.1 ∉ Arguments.taken) (text : String) :
    sayNamed locale (.text phrase.key) arguments = .ok text ↔
      Renders arguments.text? (phrase.template locale).source (.ok text) := by
  rw [sayNamed_key h, Template.renders_source_iff (phrase.isPlain_of_mem_template locale)]
  cases (phrase.template locale).fill? fun s => arguments.text? s.key with
  | error s => exact ⟨nofun, nofun⟩
  | ok t =>
    constructor
    · rintro ⟨⟩
      rfl
    · rintro ⟨⟩
      rfl

theorem sayNamed_eq_error_iff (h : ∀ a ∈ arguments, a.1 ∉ Arguments.taken) (e : CallError) :
    sayNamed locale (.text phrase.key) arguments = .error e ↔
      ∃ s : Slot, e = .failure (.missingSlot s) ∧
        Renders arguments.text? (phrase.template locale).source (.error s.key) := by
  rw [sayNamed_key h]
  simp only [Template.renders_source_iff (phrase.isPlain_of_mem_template locale)]
  cases (phrase.template locale).fill? fun s => arguments.text? s.key with
  | error s =>
    constructor
    · rintro ⟨⟩
      exact ⟨s, rfl, rfl⟩
    · rintro ⟨s', rfl, hkey⟩
      obtain rfl := Slot.key_injective (Except.error.inj hkey)
      rfl
  | ok t =>
    constructor
    · exact nofun
    · rintro ⟨s, -, ⟨⟩⟩

theorem sayNamed_congr {others : Arguments} (h : ∀ a ∈ arguments, a.1 ∉ Arguments.taken)
    (hothers : ∀ a ∈ others, a.1 ∉ Arguments.taken)
    (hslots : ∀ s ∈ (phrase.template locale).slots, others.text? s.key = arguments.text? s.key) :
    sayNamed locale (.text phrase.key) others = sayNamed locale (.text phrase.key) arguments := by
  rw [sayNamed_key h, sayNamed_key hothers, Template.fill?_congr hslots]

theorem sayNamed_eq_ok {text : Slot → String} (h : ∀ a ∈ arguments, a.1 ∉ Arguments.taken)
    (hslots : (phrase.slots.map fun s => arguments.text? s.key) =
      phrase.slots.map fun s => some (text s)) :
    sayNamed locale (.text phrase.key) arguments = .ok (phrase.say locale text) := by
  rw [sayNamed, Arguments.clash?_eq_none_iff.2 h, Phrase.sayKey_key_eq_ok hslots]
  rfl

theorem sayNamed_of_clash {before after : Arguments} {name : String} {x : Datum}
    (hbefore : ∀ a ∈ before, a.1 ∉ Arguments.taken) (hname : name ∈ Arguments.taken) (key : Json) :
    sayNamed locale key (before ++ (name, x) :: after) = .error (.clash name) := by
  rw [sayNamed, Arguments.clash?_append_cons hbefore hname]

end TraceReplay.Wording

namespace TraceReplay.Declaration

open TraceReplay.Wording

/-- The arguments that describe a declaration, with what is said about its value. -/
def arguments (format : Format) (m : Memory) (init : String) (e : Declaration) : Arguments :=
  [("name", .text e.name), ("type", .text (e.typeIn format)), ("size", .int e.sizeOfLocal),
    ("addr", .text (Address.hex (m.stackCursor - Memory.slot e.sizeOfLocal))),
    ("init", .text init)]

def texts (format : Format) (m : Memory) (init : String) (e : Declaration) : Slot → String
  | .name => e.name
  | .type => e.typeIn format
  | .size => e.sizeOfLocal.repr
  | .addr => Address.hex (m.stackCursor - Memory.slot e.sizeOfLocal)
  | .init => init
  | _ => ""

def suffix (locale : Locale) (e : Declaration) : String :=
  Phrase.initSuffix.say locale fun _ => (Value.ofJson e.value).inline

theorem describe_of_ne_null (format : Format) (locale : Locale) (m : Memory) {e : Declaration}
    (h : e.value ≠ .null) :
    e.describe format locale m =
      (Phrase.declare format).say locale (e.texts format m (e.suffix locale)) := by
  obtain ⟨line, name, type, size, value⟩ := e
  cases value with
  | null => contradiction
  | _ => rfl

theorem sayNamed_suffix (locale : Locale) (e : Declaration) :
    sayNamed locale (.text Phrase.initSuffix.key)
      [("value", .text (Value.ofJson e.value).inline)] = .ok (e.suffix locale) :=
  sayNamed_eq_ok (by simp [Arguments.taken]) rfl

theorem sayNamed_arguments (format : Format) (locale : Locale) (m : Memory) (init : String)
    (e : Declaration) :
    sayNamed locale (.text (Phrase.declare format).key) (e.arguments format m init) =
      .ok ((Phrase.declare format).say locale (e.texts format m init)) :=
  sayNamed_eq_ok (by simp [arguments, Arguments.taken]) rfl

theorem say_texts (format : Format) (locale : Locale) (m : Memory) (init : String)
    (e : Declaration) :
    (Phrase.declare format).say locale (e.texts format m init) =
      (Phrase.declare format).say locale (e.texts format m "") ++ init := by
  cases format <;> cases locale <;>
    simp [Phrase.say, Phrase.template, Phrase.english, Phrase.bengali, Template.fill, texts,
      String.append_assoc]

theorem suffix_eq (locale : Locale) (e : Declaration) :
    e.suffix locale = " = " ++ (Value.ofJson e.value).inline := by
  cases locale <;>
    simp [suffix, Phrase.say, Phrase.template, Phrase.english, Phrase.bengali, Template.fill]

/-- The text of a value ends the description of its declaration as it is. -/
theorem describe_eq_append (format : Format) (locale : Locale) (m : Memory) {e : Declaration}
    (h : e.value ≠ .null) :
    e.describe format locale m =
      { e with value := .null }.describe format locale m ++
        (" = " ++ (Value.ofJson e.value).inline) := by
  rw [describe_of_ne_null format locale m h, say_texts, suffix_eq]
  rfl

end TraceReplay.Declaration

namespace TraceReplay.Wording

/-- A call of a phrase renders its template in one pass, or misses the first placeholder without an
argument. Other arguments do not matter, unless one has the name of the key or of the receiver: then
the call is refused. The description of a declaration with a value is rendered twice, and the text
of the value passes through both renderings as it is. -/
theorem sayNamed_rendering (locale : Locale) (phrase : Phrase) (arguments : Arguments) :
    ((∀ a ∈ arguments, a.1 ∉ Arguments.taken) →
      (∀ text, sayNamed locale (.text phrase.key) arguments = .ok text ↔
        Renders arguments.text? (phrase.template locale).source (.ok text)) ∧
      (∀ e, sayNamed locale (.text phrase.key) arguments = .error e ↔
        ∃ s : Slot, e = .failure (.missingSlot s) ∧
          e.name = "KeyError" ∧ e.message = Text.quote s.key ∧
          Renders arguments.text? (phrase.template locale).source (.error s.key)) ∧
      ∀ others : Arguments, (∀ a ∈ others, a.1 ∉ Arguments.taken) →
        (∀ s ∈ (phrase.template locale).slots, others.text? s.key = arguments.text? s.key) →
        sayNamed locale (.text phrase.key) others =
          sayNamed locale (.text phrase.key) arguments) ∧
    (∀ before name x after, arguments = before ++ (name, x) :: after →
      (∀ a ∈ before, a.1 ∉ Arguments.taken) → name ∈ Arguments.taken →
      sayNamed locale (.text phrase.key) arguments = .error (.clash name)) ∧
    ∀ (format : Format) (m : Memory) (e : Declaration), e.value ≠ .null →
      (∃ init, sayNamed locale (.text Phrase.initSuffix.key)
          [("value", .text (Value.ofJson e.value).inline)] = .ok init ∧
        sayNamed locale (.text (Phrase.declare format).key) (e.arguments format m init) =
          .ok (e.describe format locale m)) ∧
      e.describe format locale m =
        { e with value := .null }.describe format locale m ++
          (" = " ++ (Value.ofJson e.value).inline) := by
  refine ⟨fun hfree => ⟨sayNamed_eq_ok_iff hfree, ?_, ?_⟩, ?_, ?_⟩
  · intro e
    rw [sayNamed_eq_error_iff hfree]
    constructor
    · rintro ⟨s, rfl, hrenders⟩
      exact ⟨s, rfl, rfl, rfl, hrenders⟩
    · rintro ⟨s, he, -, -, hrenders⟩
      exact ⟨s, he, hrenders⟩
  · intro others hothers hslots
    exact sayNamed_congr hfree hothers hslots
  · rintro before name x after rfl hbefore hname
    exact sayNamed_of_clash hbefore hname _
  · intro format m e hvalue
    refine ⟨⟨e.suffix locale, e.sayNamed_suffix locale, ?_⟩,
      e.describe_eq_append format locale m hvalue⟩
    rw [e.describe_of_ne_null format locale m hvalue]
    exact e.sayNamed_arguments format locale m _

def bracedCall : Arguments := [("fn", .text "\x7baddr\x7d"), ("addr", .int 8)]

def bracedDeclaration : Declaration :=
  { line := none, name := "s", type := none, size := none, value := .text "\x7bname\x7d" }

theorem sayNamed_rendering_braced :
    Renders bracedCall.text? ((Phrase.enter .clang).template .en).source
        (.ok "\x7baddr\x7d called; stack frame created") ∧
      Renders bracedCall.text? ((Phrase.declare .wasm).template .en).source (.error "name") ∧
      sayNamed .en (.text (Phrase.enter .clang).key)
          [("tag", .null), ("fn", .text "\x7baddr\x7d")] =
        sayNamed .en (.text (Phrase.enter .clang).key) bracedCall ∧
      sayNamed .en (.text (Phrase.enter .clang).key) (bracedCall ++ [("key", .null)]) =
        .error (.clash "key") ∧
      bracedDeclaration.describe .wasm .en .initial =
        { bracedDeclaration with value := .null }.describe .wasm .en .initial ++
          (" = " ++ "\x7bname\x7d") := by
  have hcall := sayNamed_rendering .en (.enter .clang) bracedCall
  have hmissing := sayNamed_rendering .en (.declare .wasm) bracedCall
  have hclash := sayNamed_rendering .en (.enter .clang) (bracedCall ++ [("key", .null)])
  refine ⟨((hcall.1 (by decide)).1 _).1 rfl, ?_, ?_, ?_, ?_⟩
  · obtain ⟨s, hs, -, -, hrenders⟩ :=
      ((hmissing.1 (by decide)).2.1 (.failure (.missingSlot .name))).1 rfl
    cases hs
    exact hrenders
  · exact (hcall.1 (by decide)).2.2 _ (by decide) (by decide)
  · exact hclash.2.1 bracedCall "key" .null [] rfl (by decide) (by decide)
  · exact (hcall.2.2 .wasm .initial bracedDeclaration (by decide)).2

/-- An argument that is named as the key keeps a phrase without placeholders from being said. -/
theorem sayNamed_note_key :
    Renders (Arguments.text? [("key", .text "x")]) (Phrase.note.template .en).source (.ok "note") ∧
      sayNamed .en (.text Phrase.note.key) [] = .ok "note" ∧
      sayNamed .en (.text Phrase.note.key) [("key", .text "x")] = .error (.clash "key") := by
  refine ⟨?_, rfl, rfl⟩
  rw [Template.renders_source_iff (Phrase.note.isPlain_of_mem_template .en)]
  rfl

end TraceReplay.Wording

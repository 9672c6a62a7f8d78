import Mathlib.Data.List.Forall2
import TraceReplay.Proofs.Event.Line
import TraceReplay.Proofs.Replay.Outcome

/-! # One semantics in two formats

An element that has a tag of an operation of both formats can be written in either of them: only
the field of the tag and the tag itself differ. What an event does depends on the format in nothing
but the type of a local that is given none. So a clang trace of shared operations and the same
trace written for wasm are replayed in lockstep: they fail together, or their steps agree in
everything but the descriptions, and they leave the same memory.
-/

namespace TraceReplay

/-- Two values agree in all fields from which events are read. -/
structure Json.SameData (x y : Json) : Prop where
  isObject : y.isObject = x.isObject
  field? : ∀ name ∈ Event.fieldNames, y.field? name = x.field? name

namespace Json.SameData

variable {x y : Json}

theorem line? (h : SameData x y) : Field.line? y = Field.line? x := by
  rw [Field.line?, Field.line?, h.field? "line" (by decide)]

theorem event_ofJson (h : SameData x y) (operation : Operation) :
    Event.ofJson operation y = Event.ofJson operation x := by
  have hbeside : SameBesideLine x y := ⟨h.isObject, fun name hname _ => h.field? name hname⟩
  rw [hbeside.event_ofJson, h.line?, ← (SameBesideLine.refl x).event_ofJson]

end Json.SameData

theorem Binary64.layout_ne_nil (ds : List Char) (place : Int) : layout ds place ≠ [] := by
  unfold layout
  split
  · split
    · simp
    · split <;> simp
  · simp

theorem Binary64.text_ne_empty (x : Binary64) : x.text ≠ "" := by
  cases x with
  | nan => decide
  | infinite negative => cases negative <;> decide
  | finite negative significand exponent =>
    have hdigits : magnitudeText significand exponent ≠ [] := by
      unfold magnitudeText
      split
      · simp
      · exact layout_ne_nil _ _
    cases negative <;> simp [text, hdigits]

/-- Whether a value names a type: a text that is not empty, or a number. -/
def Json.namesType : Json → Bool
  | .text s => s ≠ ""
  | .int _ | .real _ => true
  | _ => false

theorem Field.nullable_looseText_of_namesType {x : Json} (h : x.namesType = true) :
    ∃ s, nullable looseText x = .accepted (some s) ∧ s ≠ "" := by
  cases x with
  | text s => exact ⟨s, rfl, of_decide_eq_true h⟩
  | int n =>
    have hrepr : n.repr ≠ "" := by
      rw [Int.repr_eq_if]
      split <;> simp [Nat.repr_ne_empty]
    exact ⟨n.repr, rfl, hrepr⟩
  | real r => exact ⟨r.text, rfl, r.text_ne_empty⟩
  | _ => cases h

/-- A declaration that names a type has the same type in both formats. -/
theorem Declaration.typeIn_eq_of_namesType {x v : Json} {d : Declaration}
    (hd : Declaration.ofJson x = .accepted d) (hv : x.field? "vtype" = some v)
    (hname : v.namesType = true) : d.typeIn .clang = d.typeIn .wasm := by
  obtain ⟨s, hs, hne⟩ := Field.nullable_looseText_of_namesType hname
  have hfield : Field.withDefault "vtype" none (Field.nullable Field.looseText) x =
      .accepted (some s) := by
    simp [Field.withDefault, Field.firstOf, hv, hs, Checked.within]
  have htype : d.type = some s := by
    rw [Declaration.ofJson, Field.object_eq] at hd
    split at hd
    · simp only [Checked.seq_eq_accepted_iff, Checked.map_eq_accepted_iff, hfield] at hd
      obtain ⟨_, _, ⟨_, _, ⟨_, _, ⟨_, -, rfl⟩, ⟨⟩, rfl⟩, -, rfl⟩, -, rfl⟩ := hd
      rfl
    · cases hd
  simp [typeIn, htype, textOr, hne]

def sharedTags : List (String × String) :=
  [("function_enter", "call"), ("function_exit", "ret"), ("local_alloc", "alloc_local"),
    ("local_set", "set_local"), ("malloc", "malloc"), ("free", "free"), ("printf", "print"),
    ("note", "note")]

theorem operation?_of_mem_sharedTags {tags : String × String} (h : tags ∈ sharedTags) :
    ∃ operation, Format.clang.operation? tags.1 = some operation ∧
      Format.wasm.operation? tags.2 = some operation ∧
      (operation = .declare → tags.1 = "local_alloc") := by
  have hsame : ∀ tags ∈ sharedTags, (Format.clang.operation? tags.1).isSome ∧
      Format.wasm.operation? tags.2 = Format.clang.operation? tags.1 := by decide
  have hdeclare : ∀ tags ∈ sharedTags,
      Format.clang.operation? tags.1 = some .declare → tags.1 = "local_alloc" := by decide
  obtain ⟨operation, hclang⟩ := Option.isSome_iff_exists.1 (hsame tags h).1
  refine ⟨operation, hclang, (hsame tags h).2.trans hclang, ?_⟩
  rintro rfl
  exact hdeclare tags h hclang

namespace Json

/-- The value as an element of a wasm trace, if it is an object whose clang tag is shared: the
field of the clang tag is dropped, and that of the wasm tag is set. -/
def retagged (x : Json) : Json :=
  match x, x.field? Format.clang.tagField with
  | object fields, some (text tag) =>
    match sharedTags.lookup tag with
    | some other =>
      object (Fields.put Format.wasm.tagField (text other)
        (fields.filter fun field => field.1 ≠ Format.clang.tagField))
    | none => x
  | _, _ => x

/-- Whether a value can be an element of either format: it is no object, or an object with a shared
tag, which names the type if it declares a local. -/
def Translatable (x : Json) : Prop :=
  x.isObject = true → ∃ tags ∈ sharedTags, x.field? Format.clang.tagField = some (text tags.1) ∧
    (tags.1 = "local_alloc" → (x.field? "vtype").any namesType = true)

instance : DecidablePred Translatable := fun x =>
  inferInstanceAs (Decidable (x.isObject = true → ∃ tags ∈ sharedTags,
    x.field? Format.clang.tagField = some (text tags.1) ∧
      (tags.1 = "local_alloc" → (x.field? "vtype").any namesType = true)))

theorem lookup_filter_ne {name other : String} (h : name ≠ other) (fields : Fields) :
    (fields.filter fun field => field.1 ≠ other).lookup name = fields.lookup name := by
  induction fields with
  | nil => rfl
  | cons field rest ih =>
    by_cases hf : field.1 = other
    · have hname : (name == field.1) = false := by simpa [hf] using h
      rw [List.filter_cons_of_neg (by simpa using hf), ih, List.lookup_cons, hname]
    · rw [List.filter_cons_of_pos (by simpa using hf), List.lookup_cons, List.lookup_cons, ih]

theorem retagged_spec {x : Json} {tags : String × String} (hobject : x.isObject = true)
    (hmem : tags ∈ sharedTags) (htag : x.field? Format.clang.tagField = some (text tags.1)) :
    x.retagged.field? Format.wasm.tagField = some (text tags.2) ∧ SameData x x.retagged := by
  have hlookup : sharedTags.lookup tags.1 = some tags.2 := by
    have hall : ∀ tags ∈ sharedTags, sharedTags.lookup tags.1 = some tags.2 := by decide
    exact hall tags hmem
  cases x with
  | object fields =>
    have heq : (object fields).retagged = object (Fields.put Format.wasm.tagField (text tags.2)
        (fields.filter fun field => field.1 ≠ Format.clang.tagField)) := by
      simp only [retagged, htag, hlookup]
    rw [heq]
    refine ⟨Fields.lookup_put_self _ _ _, rfl, ?_⟩
    intro name hname
    have hne : name ≠ Format.wasm.tagField ∧ name ≠ Format.clang.tagField := by
      have hall : ∀ name ∈ Event.fieldNames,
          name ≠ Format.wasm.tagField ∧ name ≠ Format.clang.tagField := by decide
      exact hall name hname
    rw [field?_object, Fields.lookup_put_of_ne hne.1, lookup_filter_ne hne.2, field?_object]
  | _ => cases hobject

end Json

/-- The first element in the one format and the second one in the other do the same, whatever they
are described as. -/
structure Item.Twins (clang wasm : Item) : Prop where
  line : wasm.line = clang.line
  effect : ∀ m, wasm.effect .wasm m = clang.effect .clang m
  shown : ∀ before after, wasm.shown before after = clang.shown before after

/-- Two steps agree in all but their descriptions. -/
structure Step.Agrees (s s' : Step) : Prop where
  lines : s'.lines = s.lines
  stack : s'.snapshot.stack = s.snapshot.stack
  heap : s'.snapshot.heap = s.snapshot.heap
  output : s'.snapshot.output = s.snapshot.output

theorem Item.Twins.step {clang wasm : Item} (h : Twins clang wasm) (locale locale' : Locale)
    (before after : Memory) :
    Step.Agrees (clang.step .clang locale before after) (wasm.step .wasm locale' before after) := by
  have hshown : (wasm.shown before after).snapshot = (clang.shown before after).snapshot :=
    congrArg Memory.snapshot (h.shown before after)
  exact ⟨congrArg Option.toList h.line, congrArg Snapshot.stack hshown,
    congrArg Snapshot.heap hshown, congrArg Snapshot.output hshown⟩

/-- An event does the same in both formats, if it is not a declaration that lacks a type. -/
theorem Event.effect_wasm {e : Event}
    (h : ∀ d, e = .declare d → d.typeIn .clang = d.typeIn .wasm) (m : Memory) :
    e.effect .wasm m = e.effect .clang m := by
  cases e with
  | declare d => rw [effect, effect, h d rfl]
  | _ => rfl

/-- An element does in its own format what it does in the other one. -/
theorem Item.read_retagged {x : Json} (h : x.Translatable) :
    Twins (read .clang x) (read .wasm x.retagged) := by
  by_cases hobject : x.isObject = true
  · obtain ⟨tags, hmem, htag, htype⟩ := h hobject
    obtain ⟨htag', hdata⟩ := x.retagged_spec hobject hmem htag
    obtain ⟨operation, hclang, hwasm, hdeclare⟩ := operation?_of_mem_sharedTags hmem
    have hdata' := hdata.event_ofJson operation
    cases he : Event.ofJson operation x with
    | refused faults =>
      simp only [read, htag, htag', hclang, hwasm, hdata', he, hdata.line?]
      exact ⟨rfl, fun _ => rfl, fun _ _ => rfl⟩
    | accepted e =>
      simp only [read, htag, htag', hclang, hwasm, hdata', he]
      refine ⟨rfl, fun m => Event.effect_wasm ?_ m, fun _ _ => rfl⟩
      rintro d rfl
      obtain ⟨rfl, hd⟩ := Event.ofJson_eq_declare.1 he
      obtain ⟨v, hv, hname⟩ := (Option.any_eq_true _ _).1 (htype (hdeclare rfl))
      exact Declaration.typeIn_eq_of_namesType hd hv hname
  · -- What is no object has no fields, so that it has no tag in either format.
    cases x with
    | object fields => exact absurd rfl hobject
    | _ => exact ⟨rfl, fun _ => rfl, fun _ _ => rfl⟩

namespace Run

structure Agrees (clang wasm : Run) : Prop where
  stopped : wasm.stopped = clang.stopped
  memory : wasm.memory = clang.memory
  steps : List.Forall₂ Step.Agrees clang.steps wasm.steps

theorem ofItems_twins {clang wasm : List Item} (h : List.Forall₂ Item.Twins clang wasm)
    (locale locale' : Locale) (m : Memory) :
    Agrees (ofItems .clang locale clang m) (ofItems .wasm locale' wasm m) := by
  induction h generalizing m with
  | nil => exact ⟨rfl, rfl, .nil⟩
  | @cons item item' rest rest' htwins _ ih =>
    simp only [ofItems, htwins.effect m]
    cases item.effect .clang m with
    | error e => exact ⟨rfl, rfl, .nil⟩
    | ok after =>
      obtain ⟨hstopped, hmemory, hsteps⟩ := ih after
      exact ⟨hstopped, hmemory, .cons (htwins.step locale locale' m after) hsteps⟩

end Run

theorem Format.agrees_replay_retagged {xs : List Json} (h : ∀ x ∈ xs, x.Translatable)
    (locale locale' : Locale) :
    Run.Agrees (Format.clang.replay locale xs)
      (Format.wasm.replay locale' (xs.map Json.retagged)) := by
  apply Run.ofItems_twins
  rw [List.map_map, List.forall₂_map_left_iff, List.forall₂_map_right_iff]
  exact List.forall₂_same.2 fun x hx => Item.read_retagged (h x hx)

/-- A clang trace of shared operations, in which every declaration names its type, and the same
trace written for wasm: replaying them fails for the same reason, or yields steps that agree in
lines, stack, heap and output, and in any case leaves the same memory. -/
theorem Replayer.replay_retagged (locale locale' : Locale) (m m' : Memory) (xs : List Json)
    (h : ∀ x ∈ xs, x.Translatable) :
    let clang := (Replayer.mk .clang locale m).replay (.list xs)
    let wasm := (Replayer.mk .wasm locale' m').replay (.list (xs.map Json.retagged))
    wasm.2.memory = clang.2.memory ∧
      ((∃ e, clang.1 = .error (.noActiveFrame e) ∧ wasm.1 = .error (.noActiveFrame e)) ∨
        ∃ steps steps', clang.1 = .ok steps ∧ wasm.1 = .ok steps' ∧
          steps'.length = steps.length ∧ List.Forall₂ Step.Agrees steps steps') := by
  intro clang wasm
  obtain ⟨hstopped, hmemory, hsteps⟩ := Format.agrees_replay_retagged h locale locale'
  have hclang := Replayer.replay_list ⟨.clang, locale, m⟩ xs
  have hwasm := Replayer.replay_list ⟨.wasm, locale', m'⟩ (xs.map Json.retagged)
  refine ⟨?_, ?_⟩
  · rw [hclang.2, hwasm.2]
    exact hmemory
  · rw [hclang.1, hwasm.1, Run.outcome, Run.outcome, hstopped]
    cases (Format.clang.replay locale xs).stopped with
    | some e => exact .inl ⟨e, rfl, rfl⟩
    | none => exact .inr ⟨_, _, rfl, rfl, hsteps.length_eq.symm, hsteps⟩

/-- A trace of shared operations, with a field of the other format's tag, a surplus exit, a
malformed declaration and an element that is no object. -/
def sharedTrace : List Json :=
  [.object [("type", .text "function_exit")],
    .object [("kind", .text "note"), ("type", .text "function_enter"), ("fn", .text "f")],
    .object [("type", .text "local_alloc"), ("name", .text "p"), ("vtype", .int 3)],
    .object [("type", .text "local_alloc"), ("vtype", .text "int")],
    .object [("type", .text "malloc"), ("size", .int 0), ("sym", .text "p"), ("line", .int 4)],
    .object [("type", .text "local_set"), ("name", .text "p"), ("value", .list [.text "a"])],
    .int 7,
    .object [("type", .text "free"), ("addr", .text "0x10000000")],
    .object [("type", .text "printf"), ("text", .null)], .object [("type", .text "note")]]

theorem Replayer.replay_retagged_sharedTrace :
    let clang := (Replayer.mk .clang .en .initial).replay (.list sharedTrace)
    let wasm := (Replayer.mk .wasm .bn .initial).replay (.list (sharedTrace.map Json.retagged))
    wasm.2.memory = clang.2.memory ∧
      ∃ steps steps', clang.1 = .ok steps ∧ wasm.1 = .ok steps' ∧
        steps'.length = steps.length ∧ List.Forall₂ Step.Agrees steps steps' := by
  have htranslatable : ∀ x ∈ sharedTrace, x.Translatable := by decide +kernel
  have hok : ((Replayer.mk .clang .en .initial).replay (.list sharedTrace)).1.isOk = true := by
    decide +kernel
  obtain ⟨hmemory, herror | hsteps⟩ :=
    Replayer.replay_retagged .en .bn .initial .initial sharedTrace htranslatable
  · obtain ⟨e, he, -⟩ := herror
    rw [he] at hok
    cases hok
  · exact ⟨hmemory, hsteps⟩

end TraceReplay

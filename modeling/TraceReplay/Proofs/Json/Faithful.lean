import Mathlib.Data.List.Forall2
import TraceReplay.Proofs.Address
import TraceReplay.Proofs.Json.Steps

/-! # What the text of steps tells

A value loses its kind when it is written, but of two values that are written alike the kind matters
only if they are sequences without elements. Addresses below `2 ^ 32` are told apart by their texts,
and every other part of a step is written as it is. So steps with the same text are equal but for
characters and bytes of which there are none.
-/

namespace TraceReplay

/-- Two lists are mapped alike exactly if their elements are related in turn, where the relation is
that of being mapped alike as far as the elements go. -/
theorem map_eq_map_iff_forall₂ {α β : Type} {f : α → β} {R : α → α → Prop} {P : α → Prop}
    (hR : ∀ x y, P x → P y → (f x = f y ↔ R x y)) {xs ys : List α} (hxs : ∀ x ∈ xs, P x)
    (hys : ∀ y ∈ ys, P y) : xs.map f = ys.map f ↔ List.Forall₂ R xs ys := by
  induction xs generalizing ys with
  | nil => cases ys <;> simp
  | cons x xs ih =>
    cases ys with
    | nil => simp
    | cons y ys =>
      obtain ⟨hx, hxs⟩ := List.forall_mem_cons.1 hxs
      obtain ⟨hy, hys⟩ := List.forall_mem_cons.1 hys
      rw [List.map_cons, List.map_cons, List.cons.injEq, hR x y hx hy, ih hxs hys,
        List.forall₂_cons]

namespace Value

/-- Two values are equal, or one is no characters and the other one no bytes. -/
inductive Alike : Value → Value → Prop
  | refl (v : Value) : Alike v v
  | charsBytes : Alike (.chars []) (.bytes [])
  | bytesChars : Alike (.bytes []) (.chars [])

theorem ofChars_injective :
    Function.Injective fun cs : List Char => cs.map fun c => Json.text (String.singleton c) := by
  apply List.map_injective_iff.2
  intro c d h
  have hlists := congrArg String.toList (Json.text.inj h)
  simpa using hlists

theorem ofBytes_injective :
    Function.Injective fun bs : List UInt8 => bs.map fun b => Json.int b.toNat := by
  apply List.map_injective_iff.2
  intro a b h
  exact UInt8.toNat_inj.1 (Int.ofNat.inj (Json.int.inj h))

theorem eq_nil_of_ofChars_eq_ofBytes {cs : List Char} {bs : List UInt8}
    (h : (cs.map fun c => Json.text (String.singleton c)) = bs.map fun b => Json.int b.toNat) :
    cs = [] ∧ bs = [] := by
  cases cs with
  | nil => exact ⟨rfl, List.map_eq_nil_iff.1 h.symm⟩
  | cons c cs =>
    cases bs with
    | nil => cases h
    | cons b bs => cases (List.cons.inj h).1

theorem toJson_eq_iff {v w : Value} : v.toJson = w.toJson ↔ v.Alike w := by
  constructor
  · intro h
    cases v with
    | int n =>
      cases w with
      | int m => cases h; exact .refl _
      | _ => cases h
    | text s =>
      cases w with
      | text t => cases h; exact .refl _
      | _ => cases h
    | chars cs =>
      cases w with
      | chars ds => rw [ofChars_injective (Json.list.inj h)]; exact .refl _
      | bytes bs =>
        obtain ⟨rfl, rfl⟩ := eq_nil_of_ofChars_eq_ofBytes (Json.list.inj h)
        exact .charsBytes
      | _ => cases h
    | bytes bs =>
      cases w with
      | bytes as => rw [ofBytes_injective (Json.list.inj h)]; exact .refl _
      | chars cs =>
        obtain ⟨rfl, rfl⟩ := eq_nil_of_ofChars_eq_ofBytes (Json.list.inj h).symm
        exact .bytesChars
      | _ => cases h
  · rintro (_ | _ | _) <;> rfl

end Value

/-- Whether an address has 32 bits, without a sign. -/
def Address.IsShort (address : Int) : Prop := 0 ≤ address ∧ address < modulus

theorem Address.hex_eq_iff {n m : Int} (hn : IsShort n) (hm : IsShort m) :
    hex n = hex m ↔ n = m := by
  rw [hex, hex, hexPadded_eq_iff, Int.emod_eq_of_lt hn.1 hn.2, Int.emod_eq_of_lt hm.1 hm.2]

/-- All addresses that are shown have 32 bits. -/
structure Snapshot.HasShortAddresses (s : Snapshot) : Prop where
  locals : ∀ f ∈ s.stack, ∀ v ∈ f.locals, Address.IsShort v.address
  blocks : ∀ b ∈ s.heap, Address.IsShort b.address

instance (address : Int) : Decidable (Address.IsShort address) :=
  inferInstanceAs (Decidable (_ ∧ _))

instance (s : Snapshot) : Decidable s.HasShortAddresses :=
  decidable_of_iff ((∀ f ∈ s.stack, ∀ v ∈ f.locals, Address.IsShort v.address) ∧
      ∀ b ∈ s.heap, Address.IsShort b.address)
    ⟨fun ⟨hlocals, hblocks⟩ => ⟨hlocals, hblocks⟩, fun h => ⟨h.locals, h.blocks⟩⟩

/-- Two variables are equal but maybe for the kind of an empty value. -/
structure Variable.Alike (v w : Variable) : Prop where
  name : v.name = w.name
  type : v.type = w.type
  address : v.address = w.address
  size : v.size = w.size
  value : v.value.Alike w.value

structure Frame.Alike (f g : Frame) : Prop where
  name : f.name = g.name
  locals : List.Forall₂ Variable.Alike f.locals g.locals

/-- Two steps are equal but maybe for the kinds of empty values of locals. -/
structure Step.Alike (s t : Step) : Prop where
  lines : s.lines = t.lines
  description : s.description = t.description
  stack : List.Forall₂ Frame.Alike s.snapshot.stack t.snapshot.stack
  heap : s.snapshot.heap = t.snapshot.heap
  output : s.snapshot.output = t.snapshot.output

theorem Variable.toJson_eq_iff (v w : Variable) (hv : Address.IsShort v.address)
    (hw : Address.IsShort w.address) : v.toJson = w.toJson ↔ v.Alike w := by
  simp only [toJson, Json.object.injEq, List.cons.injEq, Prod.mk.injEq, Json.text.injEq,
    Json.int.injEq, true_and, and_true, Address.hex_eq_iff hv hw, Value.toJson_eq_iff]
  exact ⟨fun ⟨hname, htype, haddress, hsize, hvalue⟩ => ⟨hname, htype, haddress, hsize, hvalue⟩,
    fun h => ⟨h.name, h.type, h.address, h.size, h.value⟩⟩

theorem Frame.toJson_eq_iff (f g : Frame) (hf : ∀ v ∈ f.locals, Address.IsShort v.address)
    (hg : ∀ v ∈ g.locals, Address.IsShort v.address) : f.toJson = g.toJson ↔ f.Alike g := by
  simp only [toJson, Json.object.injEq, List.cons.injEq, Prod.mk.injEq, Json.text.injEq,
    Json.list.injEq, true_and, and_true, map_eq_map_iff_forall₂ Variable.toJson_eq_iff hf hg]
  exact ⟨fun ⟨hname, hlocals⟩ => ⟨hname, hlocals⟩, fun h => ⟨h.name, h.locals⟩⟩

theorem HeapBlock.byteToJson_injective : Function.Injective byteToJson := by
  intro a b h
  cases a with
  | none =>
    cases b with
    | none => rfl
    | some m => cases h
  | some n =>
    cases b with
    | none => cases h
    | some m => cases h; rfl

theorem HeapBlock.toJson_eq_iff (b c : HeapBlock) (hb : Address.IsShort b.address)
    (hc : Address.IsShort c.address) : b.toJson = c.toJson ↔ b = c := by
  obtain ⟨address, size, bytes, freed, label⟩ := b
  obtain ⟨address', size', bytes', freed', label'⟩ := c
  simp only [toJson, Json.object.injEq, List.cons.injEq, Prod.mk.injEq, Json.text.injEq,
    Json.int.injEq, Json.list.injEq, Json.bool.injEq, true_and, and_true, HeapBlock.mk.injEq,
    Address.hex_eq_iff hb hc, (List.map_injective_iff.2 byteToJson_injective).eq_iff]

theorem Step.toJson_eq_iff (s t : Step) (hs : s.snapshot.HasShortAddresses)
    (ht : t.snapshot.HasShortAddresses) : s.toJson = t.toJson ↔ s.Alike t := by
  have hlines : Function.Injective (List.map Json.int) :=
    List.map_injective_iff.2 fun _ _ => Json.int.inj
  simp only [toJson, Json.object.injEq, List.cons.injEq, Prod.mk.injEq, Json.text.injEq,
    Json.list.injEq, true_and, and_true, hlines.eq_iff,
    map_eq_map_iff_forall₂ Frame.toJson_eq_iff hs.locals ht.locals,
    map_eq_map_iff_forall₂ HeapBlock.toJson_eq_iff hs.blocks ht.blocks,
    List.forall₂_eq_eq_eq]
  exact ⟨fun ⟨hlines, hdescription, hstack, hheap, houtput⟩ =>
      ⟨hlines, hdescription, hstack, hheap, houtput⟩,
    fun h => ⟨h.lines, h.description, h.stack, h.heap, h.output⟩⟩

/-- Plain values with the same text are equal. -/
theorem Json.eq_of_print_eq {layout : Layout} {x y : Json} (hx : x.Plain) (hy : y.Plain)
    (h : print layout x = print layout y) : x = y := by
  have hread := parse_print hx layout
  rw [h, parse_print hy layout] at hread
  exact (Except.ok.inj hread).symm

theorem Step.dump_eq_iff (indent : Option Int) {steps steps' : List Step}
    (h : ∀ s ∈ steps, s.snapshot.HasShortAddresses)
    (h' : ∀ s ∈ steps', s.snapshot.HasShortAddresses) :
    dump indent steps = dump indent steps' ↔ List.Forall₂ Alike steps steps' := by
  rw [← map_eq_map_iff_forall₂ Step.toJson_eq_iff h h']
  constructor
  · intro htext
    have hplain (ss : List Step) := plain_list_map Step.plain_toJson ss
    exact Json.list.inj (Json.eq_of_print_eq (hplain steps) (hplain steps') htext)
  · intro heq
    rw [dump, dump, heq]

theorem Step.dump?_eq_ok_iff {indent : Option Int} {steps : List Step} {text : String} :
    dump? indent steps = .ok text ↔
      indent.all (Bytes.fits 8) = true ∧ dump indent steps = text := by
  cases indent with
  | none => simp [dump?]
  | some n => by_cases h : Bytes.fits 8 n = true <;> simp [dump?, withinEightBytes, Except.map, h]

/-- Steps whose addresses have 32 bits are written as the same text in some indentation exactly if
they are equal in every field, but for empty values of locals of which one is no characters and the
other one no bytes. -/
theorem Step.dump?_eq_iff_alike (indent : Option Int) (steps steps' : List Step) (text : String)
    (h : ∀ s ∈ steps, s.snapshot.HasShortAddresses)
    (h' : ∀ s ∈ steps', s.snapshot.HasShortAddresses) (htext : dump? indent steps = .ok text) :
    dump? indent steps' = .ok text ↔ List.Forall₂ Alike steps steps' := by
  obtain ⟨hindent, rfl⟩ := dump?_eq_ok_iff.1 htext
  rw [dump?_eq_ok_iff, ← dump_eq_iff indent h h']
  exact ⟨fun hdump => hdump.2.symm, fun hdump => ⟨hindent, hdump.symm⟩⟩

def charStoreTrace (bytes : List Json) : List Json :=
  [.object [("type", .text "function_enter"), ("line", .int 2)],
    .object [("type", .text "local_alloc"), ("name", .text "s\n"), ("vtype", .text "char[4]")],
    .object [("type", .text "malloc"), ("bytes", .list [.int 200])],
    .object [("type", .text "store"), ("addr", .text "0x7fffdffc"), ("bytes", .list bytes)]]

/-- A store of no bytes and one of a terminator leave different values that are written alike. -/
theorem Step.dump?_eq_iff_alike_charStoreTrace :
    let steps (bytes : List Json) := (Format.clang.replay .en (charStoreTrace bytes)).steps
    (∀ bytes ∈ [[], [.int 0]], (interpret (.list (charStoreTrace bytes)) (.text "clang")
      (.text "en")).outcome = .ok (steps bytes)) ∧
      steps [] ≠ steps [.int 0] ∧ List.Forall₂ Alike (steps []) (steps [.int 0]) ∧
      ∃ text, Step.dump? (some 2) (steps []) = .ok text ∧
        Step.dump? (some 2) (steps [.int 0]) = .ok text := by
  intro steps
  have hshort : ∀ s ∈ steps [], s.snapshot.HasShortAddresses := by decide +kernel
  have hshort' : ∀ s ∈ steps [.int 0], s.snapshot.HasShortAddresses := by decide +kernel
  have halike : List.Forall₂ Alike (steps []) (steps [.int 0]) :=
    (map_eq_map_iff_forall₂ Step.toJson_eq_iff hshort hshort').1 (by decide +kernel)
  have hdump : Step.dump? (some 2) (steps []) = .ok (Step.dump (some 2) (steps [])) := by rfl
  refine ⟨by decide +kernel, by decide +kernel, halike, _, hdump, ?_⟩
  exact (Step.dump?_eq_iff_alike (some 2) _ _ _ hshort hshort' hdump).2 halike

end TraceReplay

import TraceReplay.Interpret
import TraceReplay.Limits
import TraceReplay.Proofs.Json.RoundTrip

/-! # Steps in JSON text

Steps are written with every integer and every string in full, and every object has names of its
own, so that a text of steps is read back as the list of their objects. The only indentations that
cannot be asked for are those beyond eight bytes with a sign.
-/

namespace TraceReplay

open Json

theorem plain_list_map {α : Type} {toJson : α → Json} (h : ∀ x, (toJson x).Plain) (xs : List α) :
    (Json.list (xs.map toJson)).Plain :=
  .list fun _ hmem => by
    obtain ⟨x, -, rfl⟩ := List.mem_map.1 hmem
    exact h x

theorem Value.plain_toJson (v : Value) : v.toJson.Plain := by
  cases v with
  | int n => exact .int n
  | text s => exact .text s
  | chars cs => exact plain_list_map (fun c => .text (String.singleton c)) cs
  | bytes bs => exact plain_list_map (fun b => .int b.toNat) bs

theorem Variable.plain_toJson (v : Variable) : v.toJson.Plain := by
  refine .object (by simp) ?_
  simp only [List.forall_mem_cons]
  exact ⟨.text _, .text _, .text _, .int _, v.value.plain_toJson, List.forall_mem_nil _⟩

theorem Frame.plain_toJson (f : Frame) : f.toJson.Plain := by
  refine .object (by simp) ?_
  simp only [List.forall_mem_cons]
  exact ⟨.text _, plain_list_map Variable.plain_toJson _, List.forall_mem_nil _⟩

theorem HeapBlock.plain_byteToJson (byte : Option Int) : (byteToJson byte).Plain := by
  cases byte
  · exact .null
  · exact .int _

theorem HeapBlock.plain_toJson (b : HeapBlock) : b.toJson.Plain := by
  refine .object (by simp) ?_
  simp only [List.forall_mem_cons]
  exact ⟨.text _, .int _, plain_list_map plain_byteToJson _, .bool _, .text _,
    List.forall_mem_nil _⟩

theorem Step.plain_toJson (s : Step) : s.toJson.Plain := by
  refine .object (by simp) ?_
  simp only [List.forall_mem_cons]
  exact ⟨plain_list_map .int _, .text _, plain_list_map Frame.plain_toJson _,
    plain_list_map HeapBlock.plain_toJson _, .text _, List.forall_mem_nil _⟩

theorem readJson_dump (indent : Option Int) (steps : List Step) :
    (readJson (Step.dump indent steps)).outcome = .ok (.list (steps.map Step.toJson)) := by
  have hplain := plain_list_map Step.plain_toJson steps
  simp only [readJson, Step.dump, parse_print hplain]
  rfl

theorem newline_not_mem_dump (steps : List Step) : '\n' ∉ (Step.dump none steps).toList := by
  have hplain := plain_list_map Step.plain_toJson steps
  rw [Step.dump, print, String.toList_ofList]
  exact hplain.newline_not_mem rfl 0

/-- Steps are written in any indentation that fits eight bytes with a sign, on one line if there is
none, and are read back as the list of their objects; any other indentation is refused. -/
theorem Step.readJson_dump? (indent : Option Int) (steps : List Step) :
    (indent.all (Bytes.fits 8) = true →
      ∃ text, Step.dump? indent steps = .ok text ∧
        (readJson text).outcome = .ok (.list (steps.map Step.toJson)) ∧
        (indent = none → '\n' ∉ text.toList)) ∧
    (indent.all (Bytes.fits 8) = false → Step.dump? indent steps = .error .beyondEightBytes) := by
  cases indent with
  | none =>
    refine ⟨fun _ => ⟨_, rfl, readJson_dump none steps, fun _ => newline_not_mem_dump steps⟩, ?_⟩
    exact fun h => absurd h (by simp)
  | some n =>
    simp only [Option.all_some, Step.dump?, withinEightBytes]
    refine ⟨fun h => ?_, fun h => by simp [h, Except.map]⟩
    refine ⟨Step.dump (some n) steps, ?_, readJson_dump (some n) steps, fun hn => nomatch hn⟩
    simp [h, Except.map]

theorem Step.dump?_beyondEightBytes :
    (interpret (.list []) (.text "auto") (.text "en")).outcome = .ok [] ∧
      ¬ ∃ text, Step.dump? (some 0x8000000000000000) [] = .ok text ∧
        (readJson text).outcome = .ok (.list []) := by
  refine ⟨by rfl, ?_⟩
  rintro ⟨text, hdump, -⟩
  cases hdump

end TraceReplay

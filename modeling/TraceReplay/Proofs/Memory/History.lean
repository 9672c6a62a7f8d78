import Mathlib.Data.List.Nodup
import TraceReplay.Proofs.Memory.HeapLayout
import TraceReplay.Proofs.Memory.StackLayout

/-! # What becomes of blocks and locals

Blocks are only ever added behind those that are there. A block keeps its place and its size for
ever and its label as long as it is live, and once it is freed it does not change any more. The
output only grows. A local that is seen later lies below the cursor of before, or is one of the
locals of before with maybe another value.
-/

namespace TraceReplay

/-- The second block may be what has become of the first one. -/
structure HeapBlock.Becomes (b b' : HeapBlock) : Prop where
  address : b'.address = b.address
  size : b'.size = b.size
  freed : b.freed = true → b' = b
  label : b'.freed = false → b'.label = b.label

namespace HeapBlock

theorem Becomes.refl (b : HeapBlock) : b.Becomes b := ⟨rfl, rfl, fun _ => rfl, fun _ => rfl⟩

theorem Becomes.trans {b b' b'' : HeapBlock} (h : b.Becomes b') (h' : b'.Becomes b'') :
    b.Becomes b'' := by
  refine ⟨h'.address.trans h.address, h'.size.trans h.size, fun hfreed => ?_, fun hlive => ?_⟩
  · obtain rfl := h.freed hfreed
    exact h'.freed hfreed
  · cases hfreed : b'.freed with
    | true =>
      rw [h'.freed hfreed, hfreed] at hlive
      cases hlive
    | false => exact (h'.label hlive).trans (h.label hfreed)

theorem becomes_erase {b : HeapBlock} (hlive : b.freed = false) : b.Becomes b.erase :=
  ⟨rfl, rfl, fun hfreed => absurd (hlive.symm.trans hfreed) Bool.false_ne_true,
    fun hfreed => nomatch hfreed⟩

theorem becomes_bytes {b : HeapBlock} (hlive : b.freed = false) (bytes : List (Option Int)) :
    b.Becomes { b with bytes } :=
  ⟨rfl, rfl, fun hfreed => absurd (hlive.symm.trans hfreed) Bool.false_ne_true, fun _ => rfl⟩

end HeapBlock

namespace Memory

/-- The second memory has the blocks of the first one, or what has become of them, in their places,
and its output goes on where that of the first one ends. -/
structure Continues (m m' : Memory) : Prop where
  blocks : ∀ (k : Nat) b, m.heap[k]? = some b → ∃ b', m'.heap[k]? = some b' ∧ b.Becomes b'
  output : ∃ text, m'.output = m.output ++ text

namespace Continues

variable {m m' m'' : Memory}

theorem trans (h : Continues m m') (h' : Continues m' m'') : Continues m m'' := by
  constructor
  · intro k b hb
    obtain ⟨b', hb', hbecomes⟩ := h.blocks k b hb
    obtain ⟨b'', hb'', hbecomes'⟩ := h'.blocks k b' hb'
    exact ⟨b'', hb'', hbecomes.trans hbecomes'⟩
  · obtain ⟨text, htext⟩ := h.output
    obtain ⟨text', htext'⟩ := h'.output
    exact ⟨text ++ text', by rw [htext', htext, String.append_assoc]⟩

theorem of_heapPart (h : m'.heapPart = m.heapPart) (ho : m'.output = m.output) :
    Continues m m' := by
  have hheap : m'.heap = m.heap := congrArg Prod.fst h
  exact ⟨fun k b hb => ⟨b, hheap ▸ hb, .refl b⟩, "", by rw [ho, String.append_empty]⟩

theorem refl (m : Memory) : Continues m m := of_heapPart rfl rfl

/-- A change of the live block at an address. -/
theorem update (m : Memory) (address : Option Int) {f : HeapBlock → HeapBlock}
    (hf : ∀ b : HeapBlock, b.freed = false → b.Becomes (f b)) :
    Continues m { m with heap := updateFirst (HeapBlock.liveAt address) f m.heap } := by
  refine ⟨fun k b hb => ?_, "", (String.append_empty).symm⟩
  rcases getElem?_updateFirst f hb with hsame | ⟨hlive, hchanged⟩
  · exact ⟨b, hsame, .refl b⟩
  · exact ⟨f b, hchanged, hf b (HeapBlock.liveAt_iff.1 hlive).2⟩

theorem allocate (m : Memory) (size : Int) (label : String) :
    Continues m (m.allocate size label).2 := by
  refine ⟨fun k b hb => ⟨b, ?_, .refl b⟩, "", (String.append_empty).symm⟩
  have hk : k < m.heap.length := (List.getElem?_eq_some_iff.1 hb).1
  exact (List.getElem?_append_left hk).trans hb

theorem setByte (m : Memory) (address : Option Int) (offset byte : Int) :
    Continues m (m.setByte address offset byte) := by
  unfold Memory.setByte
  split
  · exact update m address fun b hlive => HeapBlock.becomes_bytes hlive _
  · exact refl m

end Continues

/-- Every change continues what has been. -/
theorem Change.continues {m m' : Memory} (hc : Change m m') : Continues m m' := by
  cases hc with
  | push name => exact .of_heapPart rfl rfl
  | pop => exact .of_heapPart rfl rfl
  | declare hd => exact .of_heapPart (heapPart_declare hd) (output_declare hd)
  | assign p value =>
    exact .of_heapPart (heapPart_assignFirst p value m) (output_assignFirst p value m)
  | allocate size label => exact .allocate m size label
  | free address => exact .update m address fun b hlive => HeapBlock.becomes_erase hlive
  | setByte address offset byte => exact .setByte m address offset byte
  | setBytes address bytes =>
    exact .update m address fun b hlive => HeapBlock.becomes_bytes hlive _
  | emit text => exact ⟨fun k b hb => ⟨b, hb, .refl b⟩, text, rfl⟩

theorem Reaches.continues {m m' : Memory} (h : Reaches m m') : Continues m m' :=
  h.keeps (fun _ _ hc hm => hm.trans hc.continues) (.refl m)

end Memory

def Variable.SameLocal (v w : Variable) : Prop := ∃ value, w = { v with value }

theorem Variable.SameLocal.refl (v : Variable) : v.SameLocal v := ⟨v.value, rfl⟩

theorem Variable.SameLocal.trans {u v w : Variable} (h : u.SameLocal v) (h' : v.SameLocal w) :
    u.SameLocal w := by
  obtain ⟨_, rfl⟩ := h
  obtain ⟨value, rfl⟩ := h'
  exact ⟨value, rfl⟩

namespace Memory

/-- Every local of the second memory has been declared since, or is one of the first memory. -/
def LocalsFrom (m m' : Memory) : Prop :=
  ∀ w ∈ m'.locals, w.address < m.stackCursor ∨ ∃ v ∈ m.locals, v.SameLocal w

theorem LocalsFrom.of_subset {m m' : Memory} (h : ∀ w ∈ m'.locals, w ∈ m.locals) :
    LocalsFrom m m' := fun w hw => .inr ⟨w, h w hw, .refl w⟩

theorem LocalsFrom.of_stackPart {m m' : Memory} (h : m'.stackPart = m.stackPart) :
    LocalsFrom m m' := by
  have hframes : m'.frames = m.frames := congrArg Prod.fst h
  apply of_subset
  intro w hw
  rwa [locals, ← hframes]

theorem LocalsFrom.declare {m m' : Memory} {name type : String} {size : Int} {value : Value}
    {v : Variable} (hd : m.declare name type size value = .ok (v, m')) : LocalsFrom m m' := by
  have hlt := (place_declare hd).2.2
  obtain ⟨-, f, rest, hf, rfl⟩ := declare_eq_ok_iff.1 hd
  intro w hw
  obtain ⟨g, hg, hw⟩ := mem_locals_iff.1 hw
  rcases List.mem_cons.1 hg with rfl | hg
  · rcases List.mem_append.1 hw with hw | hw
    · have hwf : w ∈ f.locals := (List.mem_filter.1 hw).1
      exact .inr ⟨w, mem_locals (hf ▸ List.mem_cons_self) hwf, .refl w⟩
    · obtain rfl := List.mem_singleton.1 hw
      exact .inl hlt
  · exact .inr ⟨w, mem_locals (hf ▸ List.mem_cons_of_mem f hg) hw, .refl w⟩

theorem LocalsFrom.assignFirst (p : Variable → Bool) (value : Variable → Value) (m : Memory) :
    LocalsFrom m (m.assignFirst p value) := by
  cases hf : m.frames with
  | nil =>
    apply of_stackPart
    simp [Memory.assignFirst, stackPart, hf]
  | cons f rest =>
    intro w hw
    obtain ⟨g, hg, hw⟩ := mem_locals_iff.1 hw
    simp only [Memory.assignFirst, hf] at hg
    rcases List.mem_cons.1 hg with rfl | hg
    · have hsame : ∃ v ∈ f.locals, v.SameLocal w := by
        refine forall_mem_updateFirst (P := fun w => ∃ v ∈ f.locals, v.SameLocal w) ?_ ?_ w hw
        · rintro u - ⟨v, hv, hvu⟩
          exact ⟨v, hv, hvu.trans ⟨value u, rfl⟩⟩
        · exact fun u hu => ⟨u, hu, .refl u⟩
      obtain ⟨v, hv, hvw⟩ := hsame
      exact .inr ⟨v, mem_locals (hf ▸ List.mem_cons_self) hv, hvw⟩
    · exact .inr ⟨w, mem_locals (hf ▸ List.mem_cons_of_mem f hg) hw, .refl w⟩

end Memory

end TraceReplay

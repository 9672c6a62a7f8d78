import TraceReplay.Proofs.Memory.History
import TraceReplay.Proofs.Replay.Outcome

/-! # The history that steps show

The memories that the steps of a trace show are reached one after the other between the initial
memory and the last one. So of two steps the later one shows all blocks of the earlier one in their
places, those that were freed exactly as they were, and an output that goes on where the earlier one
ends.
-/

namespace TraceReplay

/-- A step shows the memory before its element or the one after it. -/
theorem Item.shown_eq (item : Item) (before after : Memory) :
    item.shown before after = before ∨ item.shown before after = after := by
  cases item with
  | event tag e =>
    cases e with
    | exit c => exact .inl rfl
    | _ => exact .inr rfl
  | _ => exact .inr rfl

theorem Item.shown_reaches {format : Format} {item : Item} {before after : Memory}
    (h : item.effect format before = .ok after) :
    before.Reaches (item.shown before after) ∧ (item.shown before after).Reaches after := by
  have hreaches := effect_reaches h
  rcases item.shown_eq before after with heq | heq
  · rw [heq]
    exact ⟨.refl, hreaches⟩
  · rw [heq]
    exact ⟨hreaches, .refl⟩

/-- The memories that the steps of a run show, between its start and its end, each reached from all
that come before it. -/
theorem Run.exists_shown (format : Format) (locale : Locale) (items : List Item) (m : Memory) :
    ∃ shown : List Memory,
      (ofItems format locale items m).steps.map Step.snapshot = shown.map Memory.snapshot ∧
        (m :: (shown ++ [(ofItems format locale items m).memory])).Pairwise Memory.Reaches := by
  induction items generalizing m with
  | nil => exact ⟨[], rfl, List.pairwise_pair.2 .refl⟩
  | cons item rest ih =>
    rw [ofItems]
    cases he : item.effect format m with
    | error e => exact ⟨[], rfl, List.pairwise_pair.2 .refl⟩
    | ok after =>
      obtain ⟨shown, hsnapshots, hpairwise⟩ := ih after
      obtain ⟨hbefore, hafter⟩ := Item.shown_reaches he
      obtain ⟨hrest, hlater⟩ := List.pairwise_cons.1 hpairwise
      refine ⟨item.shown m after :: shown, congrArg (_ :: ·) hsnapshots, ?_⟩
      have hshown : ∀ x ∈ shown ++ [(ofItems format locale rest after).memory],
          (item.shown m after).Reaches x := fun x hx => hafter.trans (hrest x hx)
      rw [List.cons_append, List.pairwise_cons, List.pairwise_cons, List.forall_mem_cons]
      exact ⟨⟨hbefore, fun x hx => hbefore.trans (hshown x hx)⟩, hshown, hlater⟩

theorem Trace.exists_shown (format : Format) (locale : Locale) (trace : Trace) :
    ∃ shown : List Memory,
      (trace.run format locale).steps.map Step.snapshot = shown.map Memory.snapshot ∧
        (Memory.initial :: (shown ++ [(trace.run format locale).memory])).Pairwise
          Memory.Reaches := by
  cases trace with
  | syntaxTree =>
    have hpush : Memory.initial.Reaches (Memory.initial.push mainFrameName) := .single (.push _)
    refine ⟨[Memory.initial.push mainFrameName], rfl, ?_⟩
    exact .cons (by simp [run, syntaxTreeRun, hpush]) (List.pairwise_pair.2 .refl)
  | events xs => exact Run.exists_shown format locale (xs.map (Item.read format)) .initial

/-- The first snapshot may be shown before the second one. -/
structure Snapshot.Precedes (s s' : Snapshot) : Prop where
  length : s.heap.length ≤ s'.heap.length
  place : ∀ (k : Nat) b b', s.heap[k]? = some b → s'.heap[k]? = some b' →
    b'.address = b.address ∧ b'.size = b.size
  freed : ∀ (k : Nat) b, s.heap[k]? = some b → b.freed = true →
    s'.heap[k]? = some b ∧ b.label = HeapBlock.freedLabel ∧ ∀ byte ∈ b.bytes, byte = none
  label : ∀ (k : Nat) b b', s.heap[k]? = some b → s'.heap[k]? = some b' → b.freed = false →
    b'.freed = false → b'.label = b.label
  output : ∃ text, s'.output = s.output ++ text

theorem Memory.Reaches.precedes {m m' : Memory} (h : m.Reaches m') (hm : m.HeapLayout) :
    m.snapshot.Precedes m'.snapshot := by
  have hcontinues := h.continues
  have hbecomes : ∀ (k : Nat) b b', m.heap[k]? = some b → m'.heap[k]? = some b' →
      b.Becomes b' := by
    intro k b b' hb hb'
    obtain ⟨c, hc, hbecomes⟩ := hcontinues.blocks k b hb
    cases hc.symm.trans hb'
    exact hbecomes
  constructor
  · by_contra hlength
    rw [Nat.not_le] at hlength
    obtain ⟨b', hb', -⟩ := hcontinues.blocks _ _ (List.getElem?_eq_getElem hlength)
    exact absurd (List.getElem?_eq_some_iff.1 hb').1 (Nat.lt_irrefl _)
  · intro k b b' hb hb'
    exact ⟨(hbecomes k b b' hb hb').address, (hbecomes k b b' hb hb').size⟩
  · intro k b hb hfreed
    obtain ⟨b', hb', hbecomes'⟩ := hcontinues.blocks k b hb
    rw [hbecomes'.freed hfreed] at hb'
    exact ⟨hb', (hm.sound b (List.mem_of_getElem? hb)).freed hfreed⟩
  · intro k b b' hb hb' _ hlive
    exact (hbecomes k b b' hb hb').label hlive
  · exact hcontinues.output

/-- Of any two steps that a replay returns, what the earlier one shows may precede what the later
one shows. -/
theorem Replayer.replay_history (r : Replayer) (payload : Json) (steps : List Step)
    (h : (r.replay payload).1 = .ok steps) :
    steps.Pairwise fun s s' => s.snapshot.Precedes s'.snapshot := by
  obtain ⟨trace, -, -, rfl⟩ := Replayer.replay_eq_ok h
  obtain ⟨shown, hsnapshots, hpairwise⟩ := trace.exists_shown r.format r.locale
  obtain ⟨hinitial, hpairwise⟩ := List.pairwise_cons.1 hpairwise
  have hlayout : ∀ m ∈ shown, m.HeapLayout := fun m hm =>
    (hinitial m (List.mem_append_left _ hm)).heapLayout Memory.initial_heapLayout
  have hprecedes : (shown.map Memory.snapshot).Pairwise Snapshot.Precedes := by
    rw [List.pairwise_map]
    exact (List.pairwise_append.1 hpairwise).1.imp_of_mem fun hm _ hreaches =>
      hreaches.precedes (hlayout _ hm)
  rw [← hsnapshots, List.pairwise_map] at hprecedes
  exact hprecedes

def lifecycleTrace : List Json :=
  [.object [("type", .text "function_enter")],
    .object [("type", .text "malloc"), ("sizeBytes", .int 2), ("bytes", .list [.int 7])],
    .object [("type", .text "printf"), ("text", .text "a")],
    .object [("type", .text "free"), ("addr", .text "0x10000000")],
    .object [("type", .text "malloc"), ("label", .text "second")],
    .object [("type", .text "free"), ("addr", .text "0x10000000")],
    .object [("type", .text "store"), ("addr", .text "0x10000000"), ("bytes", .list [.int 1])],
    .object [("type", .text "function_exit")], .object [("type", .text "local_alloc")],
    .object [("type", .text "printf"), ("text", .int 5)]]

theorem Replayer.replay_history_lifecycleTrace :
    ∃ steps, ((Replayer.mk .clang .en .initial).replay (.list lifecycleTrace)).1 = .ok steps ∧
      steps.length = 10 ∧ steps.Pairwise fun s s' => s.snapshot.Precedes s'.snapshot := by
  have hstopped : (Format.clang.replay .en lifecycleTrace).stopped = none := by decide +kernel
  have hlength : (Format.clang.replay .en lifecycleTrace).steps.length = 10 := by decide +kernel
  have hsteps := Replayer.replay_list_of_not_stopped (r := ⟨.clang, .en, .initial⟩) hstopped
  exact ⟨_, hsteps, hlength,
    Replayer.replay_history ⟨.clang, .en, .initial⟩ (.list lifecycleTrace) _ hsteps⟩

end TraceReplay

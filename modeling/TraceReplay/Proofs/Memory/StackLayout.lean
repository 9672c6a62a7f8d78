import TraceReplay.Proofs.Memory.Action

/-! # The layout of the stack

Listed from the outermost frame to the innermost and in each frame in the order of declaration, the
locals have slots that lie one below the other, all between the cursor of the stack and its top.
Within a frame no name occurs twice. A declaration takes the slot below the cursor, and the cursor
never moves up again, so an address is smaller than all that were handed out before it, also those
of locals that are gone.
-/

namespace TraceReplay

/-- Where a local lies, whatever its type and its value are. -/
structure Place where
  name : String
  address : Int
  size : Int

def Place.stop (p : Place) : Int := p.address + Memory.slot p.size

def Variable.place (v : Variable) : Place := ⟨v.name, v.address, v.size⟩

/-- Whether an address lies in the slot of a local. -/
def Variable.Covers (v : Variable) (address : Int) : Prop :=
  v.address ≤ address ∧ address < v.address + Memory.slot v.size

namespace Memory

/-- The live locals from the outermost frame to the innermost, each frame's in their order. -/
def locals (m : Memory) : List Variable := m.frames.reverse.flatMap (·.locals)

theorem mem_locals_iff {m : Memory} {v : Variable} :
    v ∈ m.locals ↔ ∃ f ∈ m.frames, v ∈ f.locals := by
  simp [locals]

theorem mem_locals {m : Memory} {f : Frame} {v : Variable} (hf : f ∈ m.frames)
    (hv : v ∈ f.locals) : v ∈ m.locals :=
  mem_locals_iff.2 ⟨f, hf, hv⟩

def places (m : Memory) : List (List Place) := m.frames.map fun f => f.locals.map Variable.place

theorem map_place_locals (m : Memory) :
    m.locals.map Variable.place = m.places.reverse.flatten := by
  rw [locals, places, List.map_flatMap, List.flatMap_def, List.map_reverse]

/-- A declared local lies right below the cursor, which then moves down to it. -/
theorem place_declare {m m' : Memory} {name type : String} {size : Int} {value : Value}
    {v : Variable} (hd : m.declare name type size value = .ok (v, m')) :
    v.place.stop = m.stackCursor ∧ m'.stackCursor = v.address ∧ v.address < m.stackCursor := by
  obtain ⟨rfl, f, rest, -, rfl⟩ := declare_eq_ok_iff.1 hd
  have hpos := slot_pos size
  simp only [declared, Variable.place, Place.stop, true_and]
  omega

theorem places_declare {m m' : Memory} {name type : String} {size : Int} {value : Value}
    {v : Variable} (hd : m.declare name type size value = .ok (v, m')) :
    ∃ ps kept outer, m.places = ps :: outer ∧ m'.places = (kept ++ [v.place]) :: outer ∧
      kept.Sublist ps ∧ ∀ p ∈ kept, p.name ≠ v.place.name := by
  obtain ⟨-, f, rest, hf, rfl⟩ := declare_eq_ok_iff.1 hd
  refine ⟨f.locals.map Variable.place, (f.locals.filter (·.name ≠ v.name)).map Variable.place,
    rest.map fun f => f.locals.map Variable.place, ?_, ?_, ?_, ?_⟩
  · rw [places, hf, List.map_cons]
  · simp [places, Frame.declare]
  · exact List.filter_sublist.map _
  · intro p hp
    obtain ⟨w, hw, rfl⟩ := List.mem_map.1 hp
    simpa [Variable.place] using (List.mem_filter.1 hw).2

structure StackLayout (m : Memory) : Prop where
  names : ∀ ps ∈ m.places, (ps.map (·.name)).Nodup
  descending : m.places.reverse.flatten.Pairwise fun p q => q.stop ≤ p.address
  inside : ∀ p ∈ m.places.reverse.flatten, m.stackCursor ≤ p.address ∧ p.stop ≤ stackTop
  cursor : m.stackCursor ≤ stackTop

theorem initial_stackLayout : StackLayout initial :=
  ⟨fun _ h => (nomatch h), .nil, fun _ h => (nomatch h), Int.le_refl _⟩

namespace StackLayout

variable {m m' : Memory}

theorem congr (h : StackLayout m) (hp : m'.places = m.places)
    (hc : m'.stackCursor = m.stackCursor) : StackLayout m' := by
  constructor
  · rw [hp]
    exact h.names
  · rw [hp]
    exact h.descending
  · rw [hp, hc]
    exact h.inside
  · rw [hc]
    exact h.cursor

theorem of_stackPart (h : StackLayout m) (he : m'.stackPart = m.stackPart) : StackLayout m' := by
  obtain ⟨hframes, hcursor⟩ := Prod.mk.inj he
  apply h.congr
  · rw [places, places, hframes]
  · exact hcursor

theorem push (h : StackLayout m) (name : String) : StackLayout (m.push name) := by
  have hflat : (m.push name).places.reverse.flatten = m.places.reverse.flatten := by
    simp [Memory.push, places]
  constructor
  · exact List.forall_mem_cons.2 ⟨List.nodup_nil, h.names⟩
  · rw [hflat]
    exact h.descending
  · rw [hflat]
    exact h.inside
  · exact h.cursor

theorem pop (h : StackLayout m) : StackLayout m.pop := by
  cases hf : m.frames with
  | nil =>
    apply h.of_stackPart
    simp [Memory.pop, stackPart, hf]
  | cons f rest =>
    have hflat : m.places.reverse.flatten =
        m.pop.places.reverse.flatten ++ f.locals.map Variable.place := by
      simp [Memory.pop, places, hf]
    constructor
    · intro ps hps
      apply h.names ps
      apply List.mem_of_mem_tail
      simpa [Memory.pop, places] using hps
    · exact (List.pairwise_append.1 (hflat ▸ h.descending)).1
    · intro p hp
      apply h.inside p
      rw [hflat]
      exact List.mem_append_left _ hp
    · exact h.cursor

theorem assignFirst (h : StackLayout m) (p : Variable → Bool) (value : Variable → Value) :
    StackLayout (m.assignFirst p value) := by
  cases hf : m.frames with
  | nil =>
    have he : m.assignFirst p value = m := by rw [Memory.assignFirst, hf]
    rw [he]
    exact h
  | cons f rest =>
    have hplaces : (updateFirst p (fun v => { v with value := value v }) f.locals).map
        Variable.place = f.locals.map Variable.place :=
      map_updateFirst (f := fun v => { v with value := value v }) (fun _ => rfl) p f.locals
    apply h.congr
    · simp [Memory.assignFirst, places, hf, hplaces]
    · simp [Memory.assignFirst, hf]

/-- A declaration drops a local of the same name, and adds one behind all others, below them. -/
theorem declare (h : StackLayout m) {name type : String} {size : Int} {value : Value}
    {v : Variable} (hd : m.declare name type size value = .ok (v, m')) : StackLayout m' := by
  -- In the flat list of places some of the innermost frame go and the new one comes last.
  obtain ⟨ps, kept, outer, hplaces, hplaces', hkept, hnames⟩ := places_declare hd
  obtain ⟨hstop, hcursor, hlt⟩ := place_declare hd
  have hflat : m.places.reverse.flatten = outer.reverse.flatten ++ ps := by simp [hplaces]
  have hflat' : m'.places.reverse.flatten = outer.reverse.flatten ++ kept ++ [v.place] := by
    simp [hplaces']
  have hsub : (outer.reverse.flatten ++ kept).Sublist m.places.reverse.flatten := by
    rw [hflat]
    exact hkept.append_left _
  constructor
  · have hinner : ((kept ++ [v.place]).map (·.name)).Nodup := by
      have hps : (ps.map (·.name)).Nodup := h.names ps (by simp [hplaces])
      rw [List.map_append, List.map_singleton, List.nodup_append]
      refine ⟨hps.sublist (hkept.map _), List.pairwise_singleton _ _, ?_⟩
      intro x hx y hy
      obtain ⟨p, hp, rfl⟩ := List.mem_map.1 hx
      rw [List.mem_singleton.1 hy]
      exact hnames p hp
    have houter : ∀ qs ∈ outer, (qs.map (·.name)).Nodup := by
      intro qs hqs
      apply h.names
      rw [hplaces]
      exact List.mem_cons_of_mem _ hqs
    rw [hplaces']
    exact List.forall_mem_cons.2 ⟨hinner, houter⟩
  · rw [hflat', List.pairwise_append]
    refine ⟨h.descending.sublist hsub, List.pairwise_singleton _ _, ?_⟩
    intro p hp q hq
    rw [List.mem_singleton.1 hq, hstop]
    exact (h.inside p (hsub.subset hp)).1
  · rw [hflat', hcursor]
    intro p hp
    rcases List.mem_append.1 hp with hp | hp
    · have hp' := h.inside p (hsub.subset hp)
      exact ⟨by omega, hp'.2⟩
    · rw [List.mem_singleton.1 hp, hstop]
      exact ⟨Int.le_refl _, h.cursor⟩
  · have hle := h.cursor
    omega

end StackLayout

theorem Change.stackLayout {m m' : Memory} (hc : Change m m') (h : StackLayout m) :
    StackLayout m' := by
  cases hc with
  | push name => exact h.push name
  | pop => exact h.pop
  | declare hd => exact h.declare hd
  | assign p value => exact h.assignFirst p value
  | allocate size label => exact h.of_stackPart (stackPart_allocate size label m)
  | free address => exact h.of_stackPart (stackPart_free address m)
  | setByte address offset byte => exact h.of_stackPart (stackPart_setByte address offset byte m)
  | setBytes address bytes => exact h.of_stackPart (stackPart_setBytes address bytes m)
  | emit text => exact h.of_stackPart (stackPart_emit text m)

theorem Reaches.stackLayout {m m' : Memory} (hr : Reaches m m') (h : StackLayout m) :
    StackLayout m' :=
  hr.keeps (fun _ _ hc => hc.stackLayout) h

namespace StackLayout

variable {m : Memory}

theorem names_nodup (h : StackLayout m) {f : Frame} (hf : f ∈ m.frames) :
    (f.locals.map (·.name)).Nodup := by
  have hps := h.names _ (List.mem_map_of_mem hf)
  rwa [List.map_map] at hps

theorem slots_descending (h : StackLayout m) :
    m.locals.Pairwise fun v w => w.address + slot w.size ≤ v.address := by
  have hd := h.descending
  rwa [← map_place_locals, List.pairwise_map] at hd

theorem slot_inside (h : StackLayout m) {v : Variable} (hv : v ∈ m.locals) :
    m.stackCursor ≤ v.address ∧ v.address + slot v.size ≤ stackTop := by
  apply h.inside v.place
  rw [← map_place_locals]
  exact List.mem_map_of_mem hv

theorem addresses_nodup (h : StackLayout m) : (m.locals.map (·.address)).Nodup := by
  rw [List.Nodup, List.pairwise_map]
  apply h.slots_descending.imp
  intro v w hvw
  have hpos := slot_pos w.size
  omega

theorem frame_addresses_nodup (h : StackLayout m) {f : Frame} {rest : List Frame}
    (hf : m.frames = f :: rest) : (f.locals.map (·.address)).Nodup := by
  have hsub : f.locals.Sublist m.locals := by
    simp only [locals, hf, List.reverse_cons, List.flatMap_append, List.flatMap_singleton]
    exact List.sublist_append_right _ _
  exact h.addresses_nodup.sublist (hsub.map _)

/-- A local of the innermost frame is found by its address. -/
theorem localAt?_address (h : StackLayout m) {f : Frame} {rest : List Frame}
    (hf : m.frames = f :: rest) {v : Variable} (hv : v ∈ f.locals) :
    m.localAt? (some v.address) = some v := by
  have htop : m.localAt? (some v.address) =
      f.locals.find? fun w => some w.address = some v.address := by
    simp [localAt?, top?, hf]
  rw [htop]
  apply find?_eq_some_of_nodup (h.frame_addresses_nodup hf) hv
  · simp
  · intro w _ hw
    simpa using hw

end StackLayout

/-- The cursor of the stack never moves up. -/
theorem Change.stackCursor_le {m m' : Memory} (hc : Change m m') :
    m'.stackCursor ≤ m.stackCursor := by
  cases hc with
  | push name => exact Int.le_refl _
  | pop => exact Int.le_refl _
  | declare hd =>
    have hplace := place_declare hd
    omega
  | assign p value =>
    unfold Memory.assignFirst
    split <;> exact Int.le_refl _
  | allocate size label => exact Int.le_refl _
  | free address => exact Int.le_refl _
  | setByte address offset byte =>
    exact Int.le_of_eq (congrArg Prod.snd (stackPart_setByte address offset byte m))
  | setBytes address bytes => exact Int.le_refl _
  | emit text => exact Int.le_refl _

theorem Reaches.stackCursor_le {m m' : Memory} (h : Reaches m m') :
    m'.stackCursor ≤ m.stackCursor :=
  h.keeps (fun _ _ hc hle => Int.le_trans hc.stackCursor_le hle) (Int.le_refl _)

/-- The address of a declared local is below the cursor before, and is the cursor after. -/
theorem declaredAddress?_eq_some {a : Action} {m : Memory} {address : Int}
    (h : a.declaredAddress? m = some address) :
    address < m.stackCursor ∧ (a.after m).stackCursor = address := by
  unfold Action.declaredAddress? at h
  cases a with
  | declare name type size value =>
    unfold Action.after
    simp only [Action.perform] at h ⊢
    cases hd : m.declare name type size (.ofDatum value) with
    | error e => simp [hd] at h
    | ok r =>
      obtain ⟨-, hcursor, hlt⟩ := place_declare hd
      simp only [hd, Option.some.injEq] at h
      subst h
      exact ⟨hlt, hcursor⟩
  | store name data =>
    simp only [Action.perform] at h
    cases hs : m.storeNumbers name data <;> simp [hs] at h
  | allocate size label =>
    simp only [Action.perform] at h
    cases ha : m.allocate? size label <;> simp [ha] at h
  | _ => cases h

theorem declaredAddresses_lt (actions : List Action) (m : Memory) :
    ∀ address ∈ declaredAddresses actions m, address < m.stackCursor := by
  induction actions generalizing m with
  | nil => exact fun _ h => nomatch h
  | cons a rest ih =>
    intro address h
    rcases List.mem_append.1 h with h | h
    · exact (declaredAddress?_eq_some (Option.mem_toList.1 h)).1
    · have hlt := ih (a.after m) address h
      have hle := (after_reaches a m).stackCursor_le
      omega

theorem declaredAddresses_descending (actions : List Action) (m : Memory) :
    (declaredAddresses actions m).Pairwise fun earlier later => later < earlier := by
  induction actions generalizing m with
  | nil => exact .nil
  | cons a rest ih =>
    rw [declaredAddresses, List.pairwise_append]
    refine ⟨?_, ih (a.after m), ?_⟩
    · cases a.declaredAddress? m with
      | none => exact .nil
      | some address => exact List.pairwise_singleton _ _
    · intro earlier he later hl
      rw [← (declaredAddress?_eq_some (Option.mem_toList.1 he)).2]
      exact declaredAddresses_lt rest (a.after m) later hl

/-- The stack after any sequence of actions: names differ within a frame, the slots of the locals
are disjoint, descend and lie between the cursor and the top, declared addresses have descended all
along, and the address of a local of the innermost frame finds it. -/
theorem performAll_stack (actions : List Action) :
    let m := initial.performAll actions
    (∀ f ∈ m.frames, (f.locals.map (·.name)).Nodup) ∧
      (m.locals.Pairwise fun v w => w.address < v.address ∧ ∀ a, ¬ (v.Covers a ∧ w.Covers a)) ∧
      (∀ v ∈ m.locals, ∀ a, v.Covers a → m.stackCursor ≤ a ∧ a < stackTop) ∧
      ((declaredAddresses actions initial).Pairwise fun earlier later => later < earlier) ∧
      ∀ f rest, m.frames = f :: rest → ∀ v ∈ f.locals, m.localAt? (some v.address) = some v := by
  intro m
  have h : StackLayout m := (performAll_reaches actions initial).stackLayout initial_stackLayout
  refine ⟨fun f => h.names_nodup, ?_, ?_, declaredAddresses_descending actions initial, ?_⟩
  · apply h.slots_descending.imp
    intro v w hvw
    refine ⟨?_, fun a hcovers => ?_⟩
    · have hpos := slot_pos w.size
      omega
    · obtain ⟨⟨hva, -⟩, -, haw⟩ := hcovers
      omega
  · intro v hv a hcovers
    obtain ⟨hva, hav⟩ := hcovers
    have hinside := h.slot_inside hv
    omega
  · intro f rest hf v hv
    exact h.localAt?_address hf hv

end Memory

end TraceReplay

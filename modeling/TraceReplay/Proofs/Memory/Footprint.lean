import TraceReplay.Memory.Heap
import TraceReplay.Memory.Stack

/-! # Footprints of the memory operations

Memory has two parts, from each of which addresses are handed out: the frames with the cursor of
the stack, and the blocks with the cursor of the heap. An operation on one part leaves the other
one alone, and what it does to the heap depends on the heap only. A declaration succeeds exactly if
there is a frame, and then takes the slot below the cursor of the stack.
-/

namespace TraceReplay.Memory

/-- The frames with the cursor of the stack. -/
def stackPart (m : Memory) : List Frame × Int := (m.frames, m.stackCursor)

def heapPart (m : Memory) : List HeapBlock × Int := (m.heap, m.heapCursor)

theorem slot_pos (size : Int) : 0 < slot size := by
  unfold slot minSlot
  omega

@[simp] theorem heapPart_push (name : String) (m : Memory) : (m.push name).heapPart = m.heapPart :=
  rfl

@[simp] theorem heapPart_pop (m : Memory) : m.pop.heapPart = m.heapPart := rfl

@[simp] theorem heapPart_assignFirst (p : Variable → Bool) (value : Variable → Value)
    (m : Memory) : (m.assignFirst p value).heapPart = m.heapPart := by
  unfold assignFirst
  split <;> rfl

@[simp] theorem stackCursor_assignFirst (p : Variable → Bool) (value : Variable → Value)
    (m : Memory) : (m.assignFirst p value).stackCursor = m.stackCursor := by
  unfold assignFirst
  split <;> rfl

/-- The variable that a declaration makes. -/
def declared (name type : String) (size : Int) (value : Value) (m : Memory) : Variable :=
  ⟨name, type, m.stackCursor - slot size, size, value⟩

theorem declare_eq_error_iff {name type : String} {size : Int} {value : Value} {m : Memory}
    {e : NoActiveFrame} :
    m.declare name type size value = .error e ↔ m.frames = [] ∧ e = ⟨name⟩ := by
  unfold declare
  cases hf : m.frames with
  | nil => simp [eq_comm]
  | cons f rest => simp

/-- What a declaration does if it succeeds. -/
theorem declare_eq_ok_iff {name type : String} {size : Int} {value : Value} {m m' : Memory}
    {v : Variable} :
    m.declare name type size value = .ok (v, m') ↔
      v = m.declared name type size value ∧ ∃ f rest, m.frames = f :: rest ∧
        m' = { m with frames := f.declare v :: rest, stackCursor := v.address } := by
  unfold declare declared
  cases hf : m.frames with
  | nil => simp
  | cons f rest =>
    simp only [Except.ok.injEq, Prod.mk.injEq, List.cons.injEq]
    constructor
    · rintro ⟨rfl, rfl⟩
      exact ⟨rfl, f, rest, ⟨rfl, rfl⟩, rfl⟩
    · rintro ⟨rfl, f', rest', ⟨rfl, rfl⟩, rfl⟩
      exact ⟨rfl, rfl⟩

theorem heapPart_declare {name type : String} {size : Int} {value : Value} {m m' : Memory}
    {v : Variable} (h : m.declare name type size value = .ok (v, m')) :
    m'.heapPart = m.heapPart := by
  obtain ⟨-, f, rest, -, rfl⟩ := declare_eq_ok_iff.1 h
  rfl

theorem local?_assign (name : String) (value : Value) (m : Memory) :
    (m.assign name value).local? name = (m.local? name).map fun v => { v with value } := by
  cases hf : m.frames with
  | nil => simp [assign, assignFirst, local?, top?, hf]
  | cons f rest =>
    simp only [assign, assignFirst, local?, top?, hf, List.head?_cons, Option.bind_some,
      Frame.local?]
    exact find?_updateFirst (p := fun v : Variable => v.name = name)
      (f := fun v => { v with value }) (fun _ h => h) f.locals

/-- A store of raw numbers that succeeds is an assignment, or does nothing. -/
theorem storeNumbers_eq_ok {name : String} {data : List Int} {m m' : Memory} {r : Option Value}
    (h : m.storeNumbers name data = .ok (r, m')) :
    (r = none ∧ m' = m) ∨ ∃ value, r = some value ∧ m' = m.assign name value := by
  unfold storeNumbers at h
  cases hv : m.local? name with
  | none =>
    simp only [hv, Except.ok.injEq, Prod.mk.injEq] at h
    exact .inl ⟨h.1.symm, h.2.symm⟩
  | some v =>
    cases hs : Variable.storedNumbers v.type data with
    | error e => simp [hv, hs, bind, Except.bind] at h
    | ok value =>
      simp only [hv, hs, bind, Except.bind, Except.ok.injEq, Prod.mk.injEq] at h
      exact .inr ⟨value, h.1.symm, h.2.symm⟩

/-- A store of raw numbers that stand for a value gives it to the local. -/
theorem storeNumbers_of_local? {name : String} {data : List Int} {m : Memory} {v : Variable}
    {value : Value} (hv : m.local? name = some v)
    (hs : Variable.storedNumbers v.type data = .ok value) :
    ∃ m', m.storeNumbers name data = .ok (some value, m') ∧
      m'.local? name = some { v with value } := by
  refine ⟨m.assign name value, by simp only [storeNumbers, hv, hs]; rfl, ?_⟩
  rw [local?_assign, hv, Option.map_some]

@[simp] theorem stackPart_allocate (size : Int) (label : String) (m : Memory) :
    (m.allocate size label).2.stackPart = m.stackPart := rfl

@[simp] theorem stackPart_free (address : Option Int) (m : Memory) :
    (m.free address).stackPart = m.stackPart := rfl

@[simp] theorem stackPart_setByte (address : Option Int) (offset byte : Int) (m : Memory) :
    (m.setByte address offset byte).stackPart = m.stackPart := by
  unfold setByte
  split <;> rfl

@[simp] theorem stackPart_setBytes (address : Option Int) (bytes : List UInt8) (m : Memory) :
    (m.setBytes address bytes).stackPart = m.stackPart := rfl

theorem free_of_liveBlock?_eq_none {m : Memory} {address : Option Int}
    (h : m.liveBlock? address = none) : m.free address = m := by
  rw [free, updateFirst_of_forall_not _ fun b hb => by simpa using List.find?_eq_none.1 h b hb]

theorem setByte_of_liveBlock?_eq_none {m : Memory} {address : Option Int}
    (h : m.liveBlock? address = none) (offset byte : Int) : m.setByte address offset byte = m := by
  simp [setByte, hasByte, h]

section

variable {m n : Memory}

theorem liveBlock?_congr (h : n.heapPart = m.heapPart) (address : Option Int) :
    n.liveBlock? address = m.liveBlock? address := by
  have hheap : n.heap = m.heap := congrArg Prod.fst h
  rw [liveBlock?, hheap, liveBlock?]

theorem heapPart_allocate_congr (h : n.heapPart = m.heapPart) (size : Int) (label : String) :
    (n.allocate size label).2.heapPart = (m.allocate size label).2.heapPart := by
  have hheap : n.heap = m.heap := congrArg Prod.fst h
  have hcursor : n.heapCursor = m.heapCursor := congrArg Prod.snd h
  simp only [allocate, heapPart, hheap, hcursor]

theorem heapPart_free_congr (h : n.heapPart = m.heapPart) (address : Option Int) :
    (n.free address).heapPart = (m.free address).heapPart := by
  have hheap : n.heap = m.heap := congrArg Prod.fst h
  have hcursor : n.heapCursor = m.heapCursor := congrArg Prod.snd h
  simp only [free, heapPart, hheap, hcursor]

theorem heapPart_setByte_congr (h : n.heapPart = m.heapPart) (address : Option Int)
    (offset byte : Int) :
    (n.setByte address offset byte).heapPart = (m.setByte address offset byte).heapPart := by
  have hheap : n.heap = m.heap := congrArg Prod.fst h
  have hcursor : n.heapCursor = m.heapCursor := congrArg Prod.snd h
  have hbyte : n.hasByte address offset = m.hasByte address offset := by
    rw [hasByte, liveBlock?_congr h, hasByte]
  unfold setByte
  rw [hbyte]
  split
  · simp only [heapPart, hheap, hcursor]
  · exact h

theorem heapPart_setBytes_congr (h : n.heapPart = m.heapPart) (address : Option Int)
    (bytes : List UInt8) :
    (n.setBytes address bytes).heapPart = (m.setBytes address bytes).heapPart := by
  have hheap : n.heap = m.heap := congrArg Prod.fst h
  have hcursor : n.heapCursor = m.heapCursor := congrArg Prod.snd h
  simp only [setBytes, heapPart, hheap, hcursor]

end

@[simp] theorem output_assignFirst (p : Variable → Bool) (value : Variable → Value) (m : Memory) :
    (m.assignFirst p value).output = m.output := by
  unfold assignFirst
  split <;> rfl

@[simp] theorem output_setByte (address : Option Int) (offset byte : Int) (m : Memory) :
    (m.setByte address offset byte).output = m.output := by
  unfold setByte
  split <;> rfl

theorem output_declare {name type : String} {size : Int} {value : Value} {m m' : Memory}
    {v : Variable} (h : m.declare name type size value = .ok (v, m')) : m'.output = m.output := by
  obtain ⟨-, f, rest, -, rfl⟩ := declare_eq_ok_iff.1 h
  rfl

@[simp] theorem heapPart_emit (text : String) (m : Memory) : (m.emit text).heapPart = m.heapPart :=
  rfl

@[simp] theorem stackPart_emit (text : String) (m : Memory) :
    (m.emit text).stackPart = m.stackPart := rfl

end TraceReplay.Memory

import Mathlib.Logic.Function.Basic
import TraceReplay.Proofs.Memory.Action
import TraceReplay.Proofs.Replay.InPlace

/-! # Frames as scopes

A frame is a list of locals, in which a declaration drops the local of its name and adds another one
at the end, and in which a name is looked up from the start. As a scope it is a map from names to
what they are bound to. Each action does to the frames what it does to a stack of such maps: a frame
that is entered is an empty map, a declaration binds its name in the innermost map, assignments and
raw stores change the value of a name that is bound there, and everything else leaves the maps
alone.
-/

namespace TraceReplay

structure Binding where
  type : String
  size : Int
  value : Value
  deriving DecidableEq

/-- The bindings of a frame by their names. -/
abbrev Scope := String → Option Binding

namespace Scope

def empty : Scope := fun _ => none

def bind (name : String) (b : Binding) (s : Scope) : Scope := Function.update s name (some b)

def assign (name : String) (value : Binding → Value) (s : Scope) : Scope :=
  Function.update s name ((s name).map fun b => { b with value := value b })

variable {name : String} {s : Scope}

theorem assign_of_eq_none (h : s name = none) (value : Binding → Value) :
    s.assign name value = s := by
  rw [assign, h, Option.map_none, ← h, Function.update_eq_self]

theorem assign_of_eq_some {b : Binding} (h : s name = some b) (value : Binding → Value) :
    s.assign name value = s.assign name fun _ => value b := by
  rw [assign, assign, h, Option.map_some, Option.map_some]

end Scope

/-- What bytes stand for in a type: the characters before the first zero in a character type, the
unsigned integer of four bytes, the least significant first, and otherwise the bytes themselves. -/
def Binding.reinterpret (type : String) (data : List Int) : Value :=
  if "char".toList <+: type.toList ∧ data ≠ [] then
    .chars ((data.takeWhile (· ≠ 0)).map fun n => Char.ofNat n.toNat)
  else if data.length = 4 then .int (data.foldr (fun n rest => n + 256 * rest) 0)
  else .bytes (data.map UInt8.ofInt)

namespace Action

/-- The raw stores among the actions are of bytes. -/
def StoresBytes : Action → Prop
  | store _ data => ∀ n ∈ data, 0 ≤ n ∧ n ≤ 0xff
  | _ => True

/-- What an action does to a stack of scopes, the innermost of which comes first. -/
def onScopes : Action → List Scope → List Scope
  | push _, scopes => .empty :: scopes
  | pop, scopes => scopes.tail
  | declare name type size value, scopes =>
    scopes.modifyHead (Scope.bind name ⟨type, size, .ofDatum value⟩)
  | assign name value, scopes => scopes.modifyHead (Scope.assign name fun _ => .ofDatum value)
  | store name data, scopes =>
    scopes.modifyHead (Scope.assign name fun b => Binding.reinterpret b.type data)
  | _, scopes => scopes

end Action

/-- The scopes after a sequence of actions that starts without any. -/
def Scope.afterAll (actions : List Action) : List Scope :=
  actions.foldl (fun scopes a => a.onScopes scopes) []

def Variable.binding (v : Variable) : Binding := ⟨v.type, v.size, v.value⟩

def Frame.scope (f : Frame) : Scope := fun name => (f.local? name).map Variable.binding

/-- The scopes that the frames of a memory stand for. -/
def Memory.scopes (m : Memory) : List Scope := m.frames.map Frame.scope

namespace Frame

theorem local?_declare_self (v : Variable) (f : Frame) :
    (f.declare v).local? v.name = some v := by
  have hdropped : (f.locals.filter (·.name ≠ v.name)).find? (·.name = v.name) = none := by
    rw [List.find?_eq_none]
    intro w hw
    simpa using (List.mem_filter.1 hw).2
  rw [local?, declare, List.find?_append, hdropped]
  simp

theorem local?_declare_of_ne {v : Variable} {name : String} (h : name ≠ v.name) (f : Frame) :
    (f.declare v).local? name = f.local? name := by
  have hv : decide (v.name = name) = false := by simpa using h.symm
  have hkept : (f.locals.filter (·.name ≠ v.name)).find? (·.name = name) =
      f.locals.find? (·.name = name) := by
    rw [List.find?_filter]
    congr 1
    funext w
    by_cases hw : w.name = name <;> simp [hw, h]
  rw [local?, declare, List.find?_append, hkept, List.find?_singleton, hv]
  simp [local?]

/-- A declaration binds its name, and leaves the other names alone. -/
theorem scope_declare (v : Variable) (f : Frame) :
    (f.declare v).scope = f.scope.bind v.name v.binding := by
  funext name
  by_cases h : name = v.name
  · subst h
    simp [scope, Scope.bind, local?_declare_self]
  · rw [scope, local?_declare_of_ne h, Scope.bind, Function.update_of_ne h]
    rfl

def assign (name : String) (value : Value) (f : Frame) : Frame :=
  { f with locals := updateFirst (·.name = name) (fun v => { v with value }) f.locals }

theorem local?_assign_self (name : String) (value : Value) (f : Frame) :
    (f.assign name value).local? name = (f.local? name).map fun v => { v with value } :=
  find?_updateFirst (p := fun v : Variable => v.name = name) (f := fun v => { v with value })
    (fun _ hv => hv) f.locals

theorem local?_assign_of_ne {name other : String} (h : other ≠ name) (value : Value) (f : Frame) :
    (f.assign name value).local? other = f.local? other := by
  apply find?_updateFirst_of_apart
  · intro v hv
    have hname : v.name = name := of_decide_eq_true hv
    simpa [hname] using h.symm
  · intro v hv
    have hname : v.name = name := of_decide_eq_true hv
    simpa [hname] using h.symm

theorem scope_assign (name : String) (value : Value) (f : Frame) :
    (f.assign name value).scope = f.scope.assign name fun _ => value := by
  funext other
  by_cases h : other = name
  · subst h
    rw [scope, local?_assign_self, Scope.assign, Function.update_self, scope]
    cases f.local? other <;> rfl
  · rw [scope, local?_assign_of_ne h, Scope.assign, Function.update_of_ne h]
    rfl

end Frame

theorem Bytes.toChars_eq (bytes : List UInt8) :
    toChars bytes = ((bytes.map fun b => (b.toNat : Int)).takeWhile (· ≠ 0)).map
      fun n => Char.ofNat n.toNat := by
  have hzero : ((fun n : Int => decide (n ≠ 0)) ∘ fun b : UInt8 => (b.toNat : Int)) =
      fun b => b != 0 := by
    funext b
    by_cases hb : b = 0
    · simp [hb]
    · have hn : b.toNat ≠ 0 := fun e => hb (UInt8.toNat_inj.1 e)
      simp [hb, hn]
  rw [List.takeWhile_map, List.map_map, hzero]
  rfl

theorem Bytes.toNat_eq (bytes : List UInt8) :
    (toNat bytes : Int) =
      (bytes.map fun b => (b.toNat : Int)).foldr (fun n rest => n + 256 * rest) 0 := by
  induction bytes with
  | nil => rfl
  | cons b bs ih =>
    rw [List.map_cons, List.foldr_cons, ← ih, toNat]
    omega

theorem Variable.storedNumbers_of_bounds (type : String) {data : List Int}
    (h : ∀ n ∈ data, 0 ≤ n ∧ n ≤ 0xff) :
    storedNumbers type data = .ok (Binding.reinterpret type data) := by
  obtain ⟨bytes, rfl⟩ := Bytes.exists_bytes_of_bounds h
  have hchars : (isCharType type && !bytes.isEmpty) = true ↔
      "char".toList <+: type.toList ∧ (bytes.map fun b => (b.toNat : Int)) ≠ [] := by
    simp [isCharType, List.isPrefixOf_iff_prefix]
  rw [storedNumbers_bytes, storedValue, Binding.reinterpret, List.length_map,
    Bytes.map_ofInt_toNat, ← Bytes.toChars_eq, ← Bytes.toNat_eq]
  simp only [hchars]

namespace Memory

variable {m m' : Memory}

/-- Looking a name up in the innermost frame is looking it up in the innermost scope. -/
theorem map_binding_local? (name : String) (m : Memory) :
    (m.local? name).map Variable.binding = m.scopes.head?.bind fun s => s name := by
  cases hf : m.frames with
  | nil => simp [local?, top?, scopes, hf]
  | cons f rest => simp [local?, top?, scopes, hf, Frame.scope]

theorem name_of_local? {name : String} {v : Variable} (h : m.local? name = some v) :
    v.name = name := by
  obtain ⟨f, -, hv⟩ := Option.bind_eq_some_iff.1 h
  simpa using List.find?_some hv

theorem scopes_of_stackPart (h : m'.stackPart = m.stackPart) : m'.scopes = m.scopes := by
  have hframes : m'.frames = m.frames := congrArg Prod.fst h
  rw [scopes, scopes, hframes]

theorem scopes_declare {name type : String} {size : Int} {value : Value} {v : Variable}
    (hd : m.declare name type size value = .ok (v, m')) :
    m'.scopes = m.scopes.modifyHead (Scope.bind name ⟨type, size, value⟩) := by
  obtain ⟨rfl, f, rest, hf, rfl⟩ := declare_eq_ok_iff.1 hd
  simp only [scopes, hf, List.map_cons, List.modifyHead_cons, Frame.scope_declare]
  rfl

theorem scopes_assign (name : String) (value : Value) (m : Memory) :
    (m.assign name value).scopes = m.scopes.modifyHead (Scope.assign name fun _ => value) := by
  cases hf : m.frames with
  | nil => simp [assign, assignFirst, scopes, hf]
  | cons f rest =>
    have hassign : (m.assign name value).frames = f.assign name value :: rest := by
      simp only [assign, assignFirst, hf, Frame.assign]
    simp only [scopes, hassign, hf, List.map_cons, List.modifyHead_cons, Frame.scope_assign]

/-- A raw store of bytes never fails, and changes the value of a name that is bound. -/
theorem storeNumbers_of_bounds (name : String) {data : List Int}
    (h : ∀ n ∈ data, 0 ≤ n ∧ n ≤ 0xff) (m : Memory) :
    ∃ r m', m.storeNumbers name data = .ok (r, m') ∧
      m'.scopes =
        m.scopes.modifyHead (Scope.assign name fun b => Binding.reinterpret b.type data) := by
  have hlookup := map_binding_local? name m
  cases hv : m.local? name with
  | none =>
    refine ⟨none, m, by simp only [storeNumbers, hv], ?_⟩
    rw [hv, Option.map_none] at hlookup
    cases hs : m.scopes with
    | nil => rfl
    | cons s rest =>
      rw [hs] at hlookup
      rw [List.modifyHead_cons, Scope.assign_of_eq_none hlookup.symm]
  | some v =>
    have hstored := Variable.storedNumbers_of_bounds v.type h
    refine ⟨_, _, by simp only [storeNumbers, hv, hstored]; rfl, ?_⟩
    rw [scopes_assign]
    rw [hv, Option.map_some] at hlookup
    cases hs : m.scopes with
    | nil => rfl
    | cons s rest =>
      rw [hs] at hlookup
      have hvalue := Scope.assign_of_eq_some hlookup.symm fun b => Binding.reinterpret b.type data
      rw [List.modifyHead_cons, List.modifyHead_cons, hvalue]
      rfl

/-- An action does to the frames what it does to the scopes. -/
theorem scopes_after {a : Action} (h : a.StoresBytes) (m : Memory) :
    (a.after m).scopes = a.onScopes m.scopes := by
  cases a with
  | push name => rfl
  | pop => exact List.map_tail
  | declare name type size value =>
    simp only [Action.after, Action.perform, Action.onScopes]
    cases hd : m.declare name type size (.ofDatum value) with
    | error e =>
      have hnone : m.scopes = [] := by rw [scopes, (declare_eq_error_iff.1 hd).1, List.map_nil]
      rw [hnone]
      rfl
    | ok r => exact scopes_declare hd
  | assign name value => exact scopes_assign name _ m
  | store name data =>
    obtain ⟨r, m', hs, hscopes⟩ := storeNumbers_of_bounds name h m
    simp only [Action.after, Action.perform, Action.onScopes, hs]
    exact hscopes
  | allocate size label =>
    simp only [Action.after, Action.perform, Action.onScopes]
    cases ha : m.allocate? size label with
    | error e => rfl
    | ok r =>
      obtain rfl := allocate?_eq_ok ha
      rfl
  | free address => rfl
  | write address offset byte =>
    exact scopes_of_stackPart (stackPart_setByte address offset byte m)
  | output text => rfl

theorem scopes_performAll {actions : List Action} (h : ∀ a ∈ actions, a.StoresBytes) (m : Memory) :
    (m.performAll actions).scopes = actions.foldl (fun scopes a => a.onScopes scopes) m.scopes := by
  induction actions generalizing m with
  | nil => rfl
  | cons a rest ih =>
    obtain ⟨ha, hrest⟩ := List.forall_mem_cons.1 h
    have hstep := ih hrest (a.after m)
    rwa [scopes_after ha] at hstep

/-- A declaration fails exactly if there is no scope. -/
theorem perform_declare_eq_error_iff (name type : String) (size : Int) (value : Datum)
    (m : Memory) :
    (∃ e, (Action.declare name type size value).perform m = .error e) ↔ m.scopes = [] := by
  cases hf : m.frames with
  | nil => simp [Action.perform, declare, scopes, hf]
  | cons f rest => simp [Action.perform, declare, scopes, hf]

theorem run_declareLocal_scopes (name type : String) (size : Int) (value : Datum) (m : Memory)
    (steps : List Step) :
    (Machine.declareLocal name type size (.ofDatum value)).run ⟨m, steps⟩ =
      match m.scopes with
      | [] => .error (.noActiveFrame ⟨name⟩) ⟨m, steps⟩
      | _ :: _ => .ok () ⟨(Action.declare name type size value).after m, steps⟩ := by
  rw [Machine.run_declareLocal]
  cases hf : m.frames with
  | nil => simp [scopes, declare, hf]
  | cons f rest => simp [scopes, declare, hf, Action.after, Action.perform]

/-- After any sequence of actions, of which the raw stores are of bytes, the frames stand for the
scopes: a name has in the innermost frame the type, the size and the value that it is bound to in
the innermost scope, and is unknown exactly if it is not bound there. A declaration fails exactly if
there is no scope; also where memory is changed in place it then leaves everything as it is. -/
theorem performAll_bindings (actions : List Action) (h : ∀ a ∈ actions, a.StoresBytes) :
    let m := initial.performAll actions
    let scopes := Scope.afterAll actions
    m.scopes = scopes ∧
      (∀ name, (m.local? name).map Variable.binding = scopes.head?.bind fun s => s name) ∧
      (∀ name v, m.local? name = some v → v.name = name) ∧
      (∀ name type size value,
        (∃ e, (Action.declare name type size value).perform m = .error e) ↔ scopes = []) ∧
      ∀ name type size value steps,
        (Machine.declareLocal name type size (.ofDatum value)).run ⟨m, steps⟩ =
          match scopes with
          | [] => .error (.noActiveFrame ⟨name⟩) ⟨m, steps⟩
          | _ :: _ => .ok () ⟨(Action.declare name type size value).after m, steps⟩ := by
  intro m scopes
  have hscopes : m.scopes = scopes := scopes_performAll h initial
  refine ⟨hscopes, fun name => ?_, fun name v => name_of_local?, ?_, ?_⟩
  · rw [map_binding_local?, hscopes]
  · intro name type size value
    rw [← hscopes]
    exact perform_declare_eq_error_iff name type size value m
  · intro name type size value steps
    rw [run_declareLocal_scopes, hscopes]

/-- An exit and a declaration without a frame, and then a name that is bound in a caller and twice
in the innermost frame, where bytes are stored into it. The caller's other name is assigned from
there. -/
def shadowingActions : List Action :=
  [.pop, .declare "x" "int" 4 .null, .push "main", .declare "x" "int" 4 (.int 7),
    .declare "n" "int" 8 (.int 1), .push "f", .assign "n" (.int 2),
    .declare "x" "int" 1 (.text "old"), .declare "x" "char[3]" 3 (.bool true),
    .store "x" [104, 105, 0, 106]]

theorem performAll_bindings_shadowingActions :
    let m := initial.performAll shadowingActions
    (∀ a ∈ shadowingActions, a.StoresBytes) ∧
      (m.local? "x").map Variable.binding = some ⟨"char[3]", 3, .chars ['h', 'i']⟩ ∧
      m.local? "n" = none ∧
      (m.pop.local? "n").map Variable.binding = some ⟨"int", 8, .int 1⟩ := by
  have hbytes : ∀ a ∈ shadowingActions, a.StoresBytes := by
    simp [shadowingActions, Action.StoresBytes]
  have hpopped : ∀ a ∈ shadowingActions ++ [.pop], a.StoresBytes := by
    simp [shadowingActions, Action.StoresBytes]
  obtain ⟨-, hlocals, -⟩ := performAll_bindings shadowingActions hbytes
  obtain ⟨-, hcallers, -⟩ := performAll_bindings (shadowingActions ++ [.pop]) hpopped
  refine ⟨hbytes, (hlocals "x").trans ?_, ?_, ?_⟩
  · decide +kernel
  · exact Option.map_eq_none_iff.1 (hlocals "n")
  · have hpop : initial.performAll (shadowingActions ++ [.pop]) =
        (initial.performAll shadowingActions).pop := performAll_append _ _ _
    rw [← hpop, hcallers]
    decide +kernel

end Memory

end TraceReplay

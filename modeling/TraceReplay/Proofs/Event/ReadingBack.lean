import TraceReplay.Bytes.LittleEndian
import TraceReplay.Proofs.Event.Reading

/-! # Reading events back

What an event is written as is what its own model leaves alone: a number, a text, a list of bytes or
null, whatever was read there first. An event therefore reads back as itself, and reading an object
and writing the event changes nothing the second time. The one value that could be refused is the
size of a block, which has passed its limit once the event is there.
-/

namespace TraceReplay

namespace Field

theorem lineOf?_ofInt? (line : Option Int) : lineOf? (.ofInt? line) = line := by
  cases line <;> rfl

theorem natural_natCast (n : Nat) : natural (.int n) = .accepted n := by
  simp [natural, integer, Checked.andThen, Int.not_lt.2 (Int.natCast_nonneg n)]

theorem naturalUpTo_natCast {n limit : Nat} (h : n ≤ limit) :
    naturalUpTo limit (.int n) = .accepted n := by
  simp [naturalUpTo, natural_natCast, Checked.andThen, Nat.not_lt.2 h]

theorem nullable_natural_ofInt? (size : Option Nat) :
    nullable natural (.ofInt? (size.map Int.ofNat)) = .accepted size := by
  cases size with
  | none => rfl
  | some n => exact congrArg (some <$> ·) (natural_natCast n)

theorem nullable_naturalUpTo_ofInt? {limit : Nat} {size : Option Nat}
    (h : ∀ n, size = some n → n ≤ limit) :
    nullable (naturalUpTo limit) (.ofInt? (size.map Int.ofNat)) = .accepted size := by
  cases size with
  | none => rfl
  | some n => exact congrArg (some <$> ·) (naturalUpTo_natCast (h n rfl))

theorem nullable_looseText_ofText? (s : Option String) :
    nullable looseText (.ofText? s) = .accepted s := by
  cases s <;> rfl

theorem elements_lowByte (data : List Int) (index : Nat) :
    Checked.elements (nullAs 0 lowByte) index (data.map .int) =
      .accepted (data.map UInt8.ofInt) := by
  induction data generalizing index with
  | nil => rfl
  | cons n data ih =>
    rw [List.map_cons, Checked.elements, ih (index + 1)]
    rfl

theorem byteList_ofBytes (bytes : List UInt8) : byteList (.ofBytes bytes) = .accepted bytes := by
  have hread := elements_lowByte (bytes.map fun b => (b.toNat : Int)) 0
  rw [Bytes.map_ofInt_toNat, List.map_map] at hread
  exact hread

theorem nullable_byteList_ofBytes (bytes : Option (List UInt8)) :
    nullable byteList ((bytes.map Json.ofBytes).getD .null) = .accepted bytes := by
  cases bytes with
  | none => rfl
  | some data => exact congrArg (some <$> ·) (byteList_ofBytes data)

end Field

theorem Address.ofJson?_ofInt? (address : Option Int) :
    ofJson? (.ofInt? address) = address := by
  cases address <;> rfl

theorem Bare.ofJson_fields (e : Bare) : ofJson (.object e.fields) = .accepted e := by
  change Checked.accepted (Bare.mk (Field.lineOf? (.ofInt? e.line))) = _
  rw [Field.lineOf?_ofInt?]

theorem Call.ofJson_fields (e : Call) : ofJson (.object e.fields) = .accepted e := by
  change Call.mk (Field.lineOf? (.ofInt? e.line))
    <$> (Field.nullable Field.looseText (.ofText? e.fn)).within (.field "fn") = _
  rw [Field.lineOf?_ofInt?, Field.nullable_looseText_ofText?]
  rfl

theorem Declaration.ofJson_fields (e : Declaration) :
    ofJson (.object e.fields) = .accepted e := by
  change Declaration.mk (Field.lineOf? (.ofInt? e.line)) <$> Checked.accepted e.name
    <*> (Field.nullable Field.looseText (.ofText? e.type)).within (.field "vtype")
    <*> (Field.nullable Field.natural (.ofInt? (e.size.map Int.ofNat))).within (.field "size")
    <*> Checked.accepted e.value = _
  rw [Field.lineOf?_ofInt?, Field.nullable_looseText_ofText?, Field.nullable_natural_ofInt?]
  rfl

theorem Assignment.ofJson_fields (e : Assignment) : ofJson (.object e.fields) = .accepted e := by
  change Assignment.mk (Field.lineOf? (.ofInt? e.line)) <$> Checked.accepted e.name
    <*> Checked.accepted e.value = _
  rw [Field.lineOf?_ofInt?]
  rfl

theorem Allocation.ofJson_fields {e : Allocation} (h : ∀ n, e.size = some n → n ≤ maxBlockSize) :
    ofJson (.object e.fields) = .accepted e := by
  change Allocation.mk (Field.lineOf? (.ofInt? e.line))
    <$> (Field.nullable (Field.naturalUpTo maxBlockSize)
      (.ofInt? (e.size.map Int.ofNat))).within (.field "size")
    <*> (Field.nullable Field.looseText (.ofText? e.sym)).within (.field "sym")
    <*> (Field.nullable Field.looseText (.ofText? e.label)).within (.field "label")
    <*> (Field.nullable Field.byteList ((e.bytes.map Json.ofBytes).getD .null)).within
      (.field "bytes") = _
  rw [Field.lineOf?_ofInt?, Field.nullable_naturalUpTo_ofInt? h,
    Field.nullable_looseText_ofText?, Field.nullable_looseText_ofText?,
    Field.nullable_byteList_ofBytes]
  rfl

theorem Release.ofJson_fields (e : Release) : ofJson (.object e.fields) = .accepted e := by
  change Checked.accepted (Release.mk (Field.lineOf? (.ofInt? e.line))
    (Address.ofJson? (.ofInt? e.address))) = _
  rw [Field.lineOf?_ofInt?, Address.ofJson?_ofInt?]

theorem Store.ofJson_fields (e : Store) : ofJson (.object e.fields) = .accepted e := by
  change Store.mk (Field.lineOf? (.ofInt? e.line)) (Address.ofJson? (.ofInt? e.address))
    <$> (Field.byteList (.ofBytes e.bytes)).within (.field "bytes") = _
  rw [Field.lineOf?_ofInt?, Address.ofJson?_ofInt?, Field.byteList_ofBytes]
  rfl

theorem ByteStore.ofJson_fields (e : ByteStore) : ofJson (.object e.fields) = .accepted e := by
  change ByteStore.mk (Field.lineOf? (.ofInt? e.line)) (Address.ofJson? (.ofInt? e.address))
    <$> Checked.accepted e.offset <*> Checked.accepted (UInt8.ofInt e.byte.toNat) = _
  rw [Field.lineOf?_ofInt?, Address.ofJson?_ofInt?, Bytes.ofInt_toNat]
  rfl

theorem Output.ofJson_fields (e : Output) : ofJson (.object e.fields) = .accepted e := by
  change Output.mk (Field.lineOf? (.ofInt? e.line)) <$> Checked.accepted e.text = _
  rw [Field.lineOf?_ofInt?]
  rfl

theorem Note.ofJson_fields (e : Note) : ofJson (.object e.fields) = .accepted e := by
  change Note.mk (Field.lineOf? (.ofInt? e.line))
    <$> (Field.nullable Field.looseText (.ofText? e.text)).within (.field "text") = _
  rw [Field.lineOf?_ofInt?, Field.nullable_looseText_ofText?]
  rfl

inductive EventModel where
  | bare
  | call
  | declaration
  | assignment
  | allocation
  | release
  | store
  | byteStore
  | output
  | note
  deriving DecidableEq

def Json.NullOrInt (p : Int → Prop) (v : Json) : Prop := v = .null ∨ ∃ n, v = .int n ∧ p n

theorem Json.nullOrInt_ofInt? {p : Int → Prop} {n : Option Int} (h : ∀ i, n = some i → p i) :
    NullOrInt p (.ofInt? n) := by
  cases n with
  | none => exact .inl rfl
  | some i => exact .inr ⟨i, rfl, h i rfl⟩

/-- A list of integers of eight bits. -/
def Json.IsByteList (v : Json) : Prop :=
  ∃ data : List Int, v = .list (data.map .int) ∧ ∀ n ∈ data, 0 ≤ n ∧ n ≤ 0xff

theorem Json.isByteList_ofBytes (bytes : List UInt8) : (Json.ofBytes bytes).IsByteList := by
  refine ⟨bytes.map fun b => (b.toNat : Int), ?_, ?_⟩
  · rw [List.map_map]
    rfl
  · intro n hn
    obtain ⟨b, -, rfl⟩ := List.mem_map.1 hn
    exact Bytes.toNat_bounds b

namespace EventModel

/-- The fields of the event that a model reads from an object. -/
def read : EventModel → Json → Checked Json.Fields
  | bare, x => Bare.fields <$> Bare.ofJson x
  | call, x => Call.fields <$> Call.ofJson x
  | declaration, x => Declaration.fields <$> Declaration.ofJson x
  | assignment, x => Assignment.fields <$> Assignment.ofJson x
  | allocation, x => Allocation.fields <$> Allocation.ofJson x
  | release, x => Release.fields <$> Release.ofJson x
  | store, x => Store.fields <$> Store.ofJson x
  | byteStore, x => ByteStore.fields <$> ByteStore.ofJson x
  | output, x => Output.fields <$> Output.ofJson x
  | note, x => Note.fields <$> Note.ofJson x

/-- What a field of an accepted event may be. -/
def Allows (m : EventModel) (name : String) (v : Json) : Prop :=
  match name with
  | "line" | "addr" => v.NullOrInt fun _ => True
  | "size" => v.NullOrInt fun n => 0 ≤ n ∧ (m = allocation → n ≤ maxBlockSize)
  | "bytes" => v = .null ∨ v.IsByteList
  | "byte" => ∃ n, v = .int n ∧ 0 ≤ n ∧ n ≤ 0xff
  | _ => True

theorem allows_line (m : EventModel) (line : Option Int) : m.Allows "line" (.ofInt? line) :=
  Json.nullOrInt_ofInt? fun _ _ => trivial

theorem allows_address (m : EventModel) (address : Option Int) :
    m.Allows "addr" (.ofInt? address) :=
  Json.nullOrInt_ofInt? fun _ _ => trivial

theorem allows_size {m : EventModel} {size : Option Nat}
    (h : m = allocation → ∀ n, size = some n → n ≤ maxBlockSize) :
    m.Allows "size" (.ofInt? (size.map Int.ofNat)) := by
  apply Json.nullOrInt_ofInt?
  intro i hi
  obtain ⟨n, hn, rfl⟩ := Option.map_eq_some_iff.1 hi
  exact ⟨Int.natCast_nonneg n, fun hm => Int.ofNat_le.2 (h hm n hn)⟩

theorem allows_bytes (m : EventModel) (bytes : List UInt8) : m.Allows "bytes" (.ofBytes bytes) :=
  .inr (Json.isByteList_ofBytes bytes)

theorem allows_nullable_bytes (m : EventModel) (bytes : Option (List UInt8)) :
    m.Allows "bytes" ((bytes.map Json.ofBytes).getD .null) := by
  cases bytes with
  | none => exact .inl rfl
  | some data => exact m.allows_bytes data

theorem allows_byte (m : EventModel) (byte : UInt8) : m.Allows "byte" (.int byte.toNat) :=
  ⟨byte.toNat, rfl, Bytes.toNat_bounds byte⟩

/-- What the events of a model are written as. -/
inductive Written : EventModel → Json.Fields → Prop
  | bare (e : Bare) : Written bare e.fields
  | call (e : Call) : Written call e.fields
  | declaration (e : Declaration) : Written declaration e.fields
  | assignment (e : Assignment) : Written assignment e.fields
  | allocation (e : Allocation) (size_le : ∀ n, e.size = some n → n ≤ maxBlockSize) :
      Written allocation e.fields
  | release (e : Release) : Written release e.fields
  | store (e : Store) : Written store e.fields
  | byteStore (e : ByteStore) : Written byteStore e.fields
  | output (e : Output) : Written output e.fields
  | note (e : Note) : Written note e.fields

theorem written_of_read {m : EventModel} {x : Json} {fields : Json.Fields}
    (h : m.read x = .accepted fields) : m.Written fields := by
  cases m <;> obtain ⟨e, he, rfl⟩ := Checked.map_eq_accepted_iff.1 h <;> constructor
  -- Only an allocation has a bound that its type does not carry.
  exact fun n hn => Allocation.size_le he hn

theorem Written.read {m : EventModel} {fields : Json.Fields} (h : m.Written fields) :
    m.read (.object fields) = .accepted fields := by
  cases h with
  | bare e => exact congrArg (Bare.fields <$> ·) e.ofJson_fields
  | call e => exact congrArg (Call.fields <$> ·) e.ofJson_fields
  | declaration e => exact congrArg (Declaration.fields <$> ·) e.ofJson_fields
  | assignment e => exact congrArg (Assignment.fields <$> ·) e.ofJson_fields
  | allocation e hsize =>
    exact congrArg (Allocation.fields <$> ·) (Allocation.ofJson_fields hsize)
  | release e => exact congrArg (Release.fields <$> ·) e.ofJson_fields
  | store e => exact congrArg (Store.fields <$> ·) e.ofJson_fields
  | byteStore e => exact congrArg (ByteStore.fields <$> ·) e.ofJson_fields
  | output e => exact congrArg (Output.fields <$> ·) e.ofJson_fields
  | note e => exact congrArg (Note.fields <$> ·) e.ofJson_fields

theorem Written.allows {m : EventModel} {fields : Json.Fields} (h : m.Written fields) :
    ∀ p ∈ fields, m.Allows p.1 p.2 := by
  cases h with
  | bare e =>
    simp only [Bare.fields, List.forall_mem_cons]
    exact ⟨allows_line _ _, nofun⟩
  | call e =>
    simp only [Call.fields, List.forall_mem_cons]
    exact ⟨allows_line _ _, trivial, nofun⟩
  | declaration e =>
    simp only [Declaration.fields, List.forall_mem_cons]
    exact ⟨allows_line _ _, trivial, trivial, allows_size nofun, trivial, nofun⟩
  | assignment e =>
    simp only [Assignment.fields, List.forall_mem_cons]
    exact ⟨allows_line _ _, trivial, trivial, nofun⟩
  | allocation e hsize =>
    simp only [Allocation.fields, List.forall_mem_cons]
    exact ⟨allows_line _ _, allows_size fun _ => hsize, trivial, trivial,
      allows_nullable_bytes _ _, nofun⟩
  | release e =>
    simp only [Release.fields, List.forall_mem_cons]
    exact ⟨allows_line _ _, allows_address _ _, nofun⟩
  | store e =>
    simp only [Store.fields, List.forall_mem_cons]
    exact ⟨allows_line _ _, allows_address _ _, allows_bytes _ _, nofun⟩
  | byteStore e =>
    simp only [ByteStore.fields, List.forall_mem_cons]
    exact ⟨allows_line _ _, allows_address _ _, trivial, allows_byte _ _, nofun⟩
  | output e =>
    simp only [Output.fields, List.forall_mem_cons]
    exact ⟨allows_line _ _, trivial, nofun⟩
  | note e =>
    simp only [Note.fields, List.forall_mem_cons]
    exact ⟨allows_line _ _, trivial, nofun⟩

/-- The fields of an event that a model accepts are accepted as they are, and each is as the model
allows it. -/
theorem read_fields (m : EventModel) (x : Json) (fields : Json.Fields)
    (h : m.read x = .accepted fields) :
    m.read (.object fields) = .accepted fields ∧
      ∀ name v, (name, v) ∈ fields → m.Allows name v :=
  ⟨(written_of_read h).read, fun name v hmem => (written_of_read h).allows (name, v) hmem⟩

/-- An allocation in loose notation: the size as text with blanks and an underscore, bytes beyond
eight bits, and a name and a line of other types than usual. -/
def looseAllocation : Json :=
  .object [("line", .bool true), ("size", .int (-1)), ("sizeBytes", .text " 1_6 "),
    ("sym", .int 5), ("bytes", .list [.int 300, .null, .text "-1", .bool true])]

theorem read_fields_looseAllocation :
    ∃ fields, allocation.read looseAllocation = .accepted fields ∧
      fields = [("line", .null), ("size", .int 16), ("sym", .text "5"), ("label", .null),
        ("bytes", .list [.int 44, .int 0, .int 255, .int 1])] ∧
      allocation.read (.object fields) = .accepted fields ∧
      ∀ name v, (name, v) ∈ fields → allocation.Allows name v := by
  have hread : allocation.read looseAllocation = .accepted
      [("line", .null), ("size", .int 16), ("sym", .text "5"), ("label", .null),
        ("bytes", .list [.int 44, .int 0, .int 255, .int 1])] := by
    decide +kernel
  exact ⟨_, hread, rfl, read_fields allocation looseAllocation _ hread⟩

end EventModel

end TraceReplay

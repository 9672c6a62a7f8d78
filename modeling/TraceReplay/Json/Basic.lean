import TraceReplay.Binary64

/-! # JSON values

Integers are unbounded and kept apart from floating-point numbers. An object keeps its fields in
the order in which its names first appear, and no reader or function of this library gives an
object the same name twice.
-/

namespace TraceReplay

inductive Json where
  | null
  | bool (b : Bool)
  | int (n : Int)
  | real (x : Binary64)
  | text (s : String)
  | list (xs : List Json)
  | object (fields : List (String × Json))
  deriving Inhabited

namespace Json

abbrev Fields := List (String × Json)

/-- Give a name a value: in place if the name is there, otherwise at the end. -/
def Fields.put (name : String) (value : Json) : Fields → Fields
  | [] => [(name, value)]
  | (n, v) :: rest => if n = name then (n, value) :: rest else (n, v) :: Fields.put name value rest

/-- The object of a sequence of fields: the last value of a name, at the place of the first. -/
def Fields.ofList (pairs : Fields) : Fields :=
  pairs.foldl (fun fields (name, value) => fields.put name value) []

/-- The value of a name; other values than objects have no names. -/
def field? (name : String) : Json → Option Json
  | object fields => fields.lookup name
  | _ => none

def isObject : Json → Bool
  | object _ => true
  | _ => false

def typeName : Json → String
  | null => "NoneType"
  | bool _ => "bool"
  | int _ => "int"
  | real _ => "float"
  | text _ => "str"
  | list _ => "list"
  | object _ => "dict"

theorem field?_object (name : String) (fields : Fields) :
    field? name (object fields) = fields.lookup name := rfl

theorem Fields.lookup_put_self (name : String) (value : Json) (fields : Fields) :
    (fields.put name value).lookup name = some value := by
  induction fields with
  | nil => simp [put]
  | cons p rest ih =>
    obtain ⟨n, v⟩ := p
    by_cases h : n = name
    · simp [put, h]
    · have h' : (name == n) = false := by simpa using fun e => h e.symm
      simp [put, h, List.lookup_cons, h', ih]

theorem Fields.lookup_put_of_ne {name other : String} (h : other ≠ name) (value : Json)
    (fields : Fields) : (fields.put name value).lookup other = fields.lookup other := by
  induction fields with
  | nil =>
    have h' : (other == name) = false := by simpa using h
    simp [put, List.lookup_cons, h']
  | cons p rest ih =>
    obtain ⟨n, v⟩ := p
    by_cases hn : n = name
    · subst hn
      have h' : (other == n) = false := by simpa using h
      simp [put, List.lookup_cons, h']
    · simp only [put, hn, if_false, List.lookup_cons, ih]

end Json

end TraceReplay

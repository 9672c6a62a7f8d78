/-! # Templates

A template is a sequence of fixed texts and slots. Filling it replaces every slot once by the text
given for it; the texts themselves are copied and never looked into. A slot without a text is
reported, the leftmost first.
-/

namespace TraceReplay.Wording

inductive Slot where
  | fn
  | name
  | type
  | size
  | addr
  | init
  | value
  | label
  | count
  | text
  | offset
  | byte
  | tag
  deriving DecidableEq

def Slot.key : Slot → String
  | fn => "fn"
  | name => "name"
  | type => "type"
  | size => "size"
  | addr => "addr"
  | init => "init"
  | value => "value"
  | label => "label"
  | count => "count"
  | text => "text"
  | offset => "offset"
  | byte => "byte"
  | tag => "tag"

inductive Piece where
  | words (s : String)
  | slot (s : Slot)
  deriving DecidableEq

abbrev Template := List Piece

namespace Template

def fill (given : Slot → String) : Template → String
  | [] => ""
  | .words s :: rest => s ++ fill given rest
  | .slot s :: rest => given s ++ fill given rest

/-- Fill every slot, or name the leftmost slot that is not given. -/
def fill? (given : Slot → Option String) : Template → Except Slot String
  | [] => .ok ""
  | .words s :: rest => (s ++ ·) <$> fill? given rest
  | .slot s :: rest =>
    match given s with
    | some t => (t ++ ·) <$> fill? given rest
    | none => .error s

theorem fill?_some (given : Slot → String) (t : Template) :
    fill? (fun s => some (given s)) t = .ok (fill given t) := by
  induction t with
  | nil => rfl
  | cons p rest ih => cases p <;> simp [fill?, fill, ih, Functor.map, Except.map]

end Template

end TraceReplay.Wording

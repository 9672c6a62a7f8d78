import TraceReplay.Proofs.Json.Integers
import TraceReplay.Proofs.Json.Strings

/-! # Reading written values

A value that is built from null, truth values, integers, strings, lists and objects without a
repeated name is read back from its text, whatever the indentation. Blanks stand only where the
reader skips them, and what follows a value in a text never continues a number.
-/

namespace TraceReplay.Json

/-- A value without floating-point numbers in which no object has a name twice. -/
inductive Plain : Json → Prop
  | null : Plain .null
  | bool (b : Bool) : Plain (.bool b)
  | int (n : Int) : Plain (.int n)
  | text (s : String) : Plain (.text s)
  | list {xs : List Json} (elements : ∀ x ∈ xs, Plain x) : Plain (.list xs)
  | object {fields : Fields} (names : (fields.map Prod.fst).Nodup)
      (values : ∀ field ∈ fields, Plain field.2) : Plain (.object fields)

/-- Whether every character of a text is blank. -/
def Blanks (cs : List Char) : Prop := ∀ c ∈ cs, isBlank c = true

/-- A text that starts neither with a blank, nor with the end of a list, nor with a byte order
mark. -/
def Opens (cs : List Char) : Prop :=
  ∃ c rest, cs = c :: rest ∧ isBlank c = false ∧ c ≠ ']' ∧ c ≠ '\uFEFF'

theorem skipBlank_append {blanks : List Char} (h : Blanks blanks) (cs : List Char) :
    skipBlank (blanks ++ cs) = skipBlank cs :=
  List.dropWhile_append_of_pos h

theorem skipBlank_cons {c : Char} (h : isBlank c = false) (cs : List Char) :
    skipBlank (c :: cs) = c :: cs :=
  List.dropWhile_cons_of_neg (by simp [h])

theorem skipBlank_append_cons {blanks : List Char} (h : Blanks blanks) {c : Char}
    (hc : isBlank c = false) (cs : List Char) : skipBlank (blanks ++ c :: cs) = c :: cs :=
  (skipBlank_append h _).trans (skipBlank_cons hc cs)

theorem Opens.append {cs : List Char} (h : Opens cs) (rest : List Char) : Opens (cs ++ rest) := by
  obtain ⟨c, cs, rfl, hc⟩ := h
  exact ⟨c, cs ++ rest, rfl, hc⟩

theorem Opens.skipBlank {cs : List Char} (h : Opens cs) (rest : List Char) :
    skipBlank (cs ++ rest) = cs ++ rest := by
  obtain ⟨c, cs, rfl, hc, -, -⟩ := h
  exact skipBlank_cons hc (cs ++ rest)

theorem Layout.blanks_break (layout : Layout) (depth : Nat) : Blanks (layout.break depth) := by
  intro c hc
  unfold Layout.break at hc
  split at hc
  · cases hc
  · rcases List.mem_cons.1 hc with rfl | hspace
    · rfl
    · rw [List.eq_of_mem_replicate hspace]
      rfl

theorem Layout.separator_eq (layout : Layout) (depth : Nat) :
    ∃ blanks, Blanks blanks ∧ layout.separator depth = ',' :: blanks := by
  unfold Layout.separator
  split
  · exact ⟨[' '], by simp [Blanks, isBlank], rfl⟩
  · exact ⟨layout.break depth, layout.blanks_break depth, rfl⟩

theorem continuesNumber_of_isBlank {c : Char} (h : isBlank c = true) :
    continuesNumber c = false := by
  simp only [isBlank, Bool.or_eq_true, beq_iff_eq] at h
  rcases h with ((rfl | rfl) | rfl) | rfl <;> rfl

theorem endsNumber_cons {c : Char} (h : continuesNumber c = false) (cs : List Char) :
    EndsNumber (c :: cs) := by
  intro d hd
  obtain rfl : c = d := by simpa using hd
  exact h

theorem endsNumber_append {blanks : List Char} (h : Blanks blanks) {c : Char}
    (hc : continuesNumber c = false) (cs : List Char) : EndsNumber (blanks ++ c :: cs) := by
  cases blanks with
  | nil => exact endsNumber_cons hc cs
  | cons b blanks => exact endsNumber_cons (continuesNumber_of_isBlank (h b List.mem_cons_self)) _

theorem isBlank_eq_false_of_isDigit {c : Char} (h : c.isDigit = true) : isBlank c = false := by
  cases hb : isBlank c with
  | false => rfl
  | true =>
    have hc := continuesNumber_of_isBlank hb
    simp [continuesNumber, h] at hc

theorem opens_repr (n : Int) : Opens n.repr.toList := by
  obtain ⟨d, ds, hd, -, hrepr⟩ := toList_repr n
  rw [hrepr]
  split
  · exact ⟨'-', d :: ds, rfl, by decide, by decide, by decide⟩
  · refine ⟨d, ds, rfl, isBlank_eq_false_of_isDigit hd, ?_, ?_⟩ <;>
      · rintro rfl
        exact absurd hd (by decide)

theorem Plain.opens {x : Json} (h : x.Plain) (layout : Layout) (depth : Nat) :
    Opens (write layout depth x) := by
  have hopens (c : Char) (rest : List Char) (hblank : isBlank c = false) (hclose : c ≠ ']')
      (hmark : c ≠ '\uFEFF') : Opens (c :: rest) := ⟨c, rest, rfl, hblank, hclose, hmark⟩
  cases h with
  | null => exact hopens 'n' _ (by decide) (by decide) (by decide)
  | bool b =>
    cases b
    · exact hopens 'f' _ (by decide) (by decide) (by decide)
    · exact hopens 't' _ (by decide) (by decide) (by decide)
  | int n => exact opens_repr n
  | text s => exact hopens '"' _ (by decide) (by decide) (by decide)
  | @list xs _ => cases xs <;> exact hopens '[' _ (by decide) (by decide) (by decide)
  | @object fields _ _ => cases fields <;> exact hopens '\x7b' _ (by decide) (by decide) (by decide)

/-- Whether a value is read back from its text, at every depth and before any text that does not
continue a number. -/
def ReadsBack (layout : Layout) (x : Json) : Prop :=
  ∀ depth fuel rest, EndsNumber rest → 2 * (write layout depth x).length ≤ fuel →
    value fuel (write layout depth x ++ rest) = .ok (x, rest)

section

variable {layout : Layout} {depth : Nat} {blanks : List Char}

theorem elements_last {cs rest : List Char} {fuel : Nat} {x : Json} (hblanks : Blanks blanks)
    (hx : value fuel cs = .ok (x, blanks ++ ']' :: rest)) :
    elements (fuel + 1) cs = .ok ([x], rest) := by
  have hclose : skipBlank (blanks ++ ']' :: rest) = ']' :: rest :=
    skipBlank_append_cons hblanks (by decide) rest
  rw [elements, hx]
  simp only [bind, Except.bind, hclose]

theorem elements_next {cs more rest : List Char} {fuel : Nat} {x : Json} {xs : List Json}
    (hblanks : Blanks blanks) (hx : value fuel cs = .ok (x, ',' :: blanks ++ more))
    (hmore : skipBlank more = more) (hxs : elements fuel more = .ok (xs, rest)) :
    elements (fuel + 1) cs = .ok (x :: xs, rest) := by
  have hcomma : skipBlank (',' :: (blanks ++ more)) = ',' :: (blanks ++ more) :=
    skipBlank_cons (by decide) _
  have hskip : skipBlank (blanks ++ more) = more := (skipBlank_append hblanks more).trans hmore
  rw [elements, hx]
  simp only [bind, Except.bind, List.cons_append, hcomma, hskip, hxs]

/-- Elements that are read back one by one are read back as a list, up to the closing bracket. -/
theorem elements_write {x : Json} {xs : List Json} (hplain : ∀ y ∈ x :: xs, y.Plain)
    (hread : ∀ y ∈ x :: xs, ReadsBack layout y) (hblanks : Blanks blanks) {fuel : Nat}
    (hfuel : 2 * (write layout depth x ++ writeElements layout depth xs).length ≤ fuel)
    (rest : List Char) :
    elements (fuel + 1) (write layout depth x ++ (writeElements layout depth xs ++
      (blanks ++ ']' :: rest))) = .ok (x :: xs, rest) := by
  have hx := hread x List.mem_cons_self depth
  induction xs generalizing x fuel with
  | nil =>
    refine elements_last hblanks (hx fuel _ ?_ (by simpa [writeElements] using hfuel))
    exact endsNumber_append hblanks (by decide) rest
  | cons y ys ih =>
    obtain ⟨gap, hgap, hseparator⟩ := layout.separator_eq depth
    simp only [writeElements, hseparator, List.length_append, List.length_cons] at hfuel
    -- One step of the bound is for the element, and the comma leaves two for it.
    obtain ⟨fuel, rfl⟩ : ∃ n, fuel = n + 1 := ⟨fuel - 1, by omega⟩
    have hrest : 2 * (write layout depth y ++ writeElements layout depth ys).length ≤ fuel := by
      rw [List.length_append]
      omega
    have hys := ih (fun z hz => hplain z (List.mem_cons_of_mem x hz))
      (fun z hz => hread z (List.mem_cons_of_mem x hz)) hrest (hread y (by simp) depth)
    have hopens := (hplain y (by simp)).opens layout depth
    simp only [writeElements, hseparator, List.append_assoc]
    refine elements_next hgap (hx (fuel + 1) _ ?_ (by omega)) (hopens.skipBlank _) hys
    exact endsNumber_cons (by decide) _

theorem members_last (asciiOnly : Bool) (name : String) {cs rest : List Char} {fuel : Nat}
    {x : Json} (hblanks : Blanks blanks) (hcs : skipBlank cs = cs)
    (hx : value fuel cs = .ok (x, blanks ++ '\x7d' :: rest)) :
    members (fuel + 1) (writeString asciiOnly name ++ (':' :: ' ' :: cs)) =
      .ok ([(name, x)], rest) := by
  have hcolon : skipBlank (':' :: ' ' :: cs) = ':' :: ' ' :: cs := skipBlank_cons (by decide) _
  have hspace : skipBlank (' ' :: cs) = cs := hcs
  have hclose : skipBlank (blanks ++ '\x7d' :: rest) = '\x7d' :: rest :=
    skipBlank_append_cons hblanks (by decide) rest
  simp only [writeString, List.cons_append, List.append_assoc, List.nil_append]
  rw [members, string_writeString]
  simp only [bind, Except.bind, hcolon, hspace, hx, hclose]

theorem members_next (asciiOnly : Bool) (name : String) {cs more rest : List Char} {fuel : Nat}
    {x : Json} {fields : Fields} (hblanks : Blanks blanks) (hcs : skipBlank cs = cs)
    (hx : value fuel cs = .ok (x, ',' :: blanks ++ more)) (hmore : skipBlank more = more)
    (hfields : members fuel more = .ok (fields, rest)) :
    members (fuel + 1) (writeString asciiOnly name ++ (':' :: ' ' :: cs)) =
      .ok ((name, x) :: fields, rest) := by
  have hcolon : skipBlank (':' :: ' ' :: cs) = ':' :: ' ' :: cs := skipBlank_cons (by decide) _
  have hspace : skipBlank (' ' :: cs) = cs := hcs
  have hcomma : skipBlank (',' :: (blanks ++ more)) = ',' :: (blanks ++ more) :=
    skipBlank_cons (by decide) _
  have hskip : skipBlank (blanks ++ more) = more := (skipBlank_append hblanks more).trans hmore
  simp only [writeString, List.cons_append, List.append_assoc, List.nil_append] at hx ⊢
  rw [members, string_writeString]
  simp only [bind, Except.bind, hcolon, hspace, hx, hcomma, hskip, hfields]

/-- Members whose values are read back are read back as an object, up to the closing brace. -/
theorem members_write {name : String} {x : Json} {fields : Fields}
    (hplain : ∀ field ∈ (name, x) :: fields, field.2.Plain)
    (hread : ∀ field ∈ (name, x) :: fields, ReadsBack layout field.2) (hblanks : Blanks blanks)
    {fuel : Nat} (hfuel : 2 * (write layout depth x ++ writeMembers layout depth fields).length ≤
      fuel) (rest : List Char) :
    members (fuel + 1) (writeString layout.asciiOnly name ++ (':' :: ' ' ::
      (write layout depth x ++ (writeMembers layout depth fields ++ (blanks ++ '\x7d' :: rest))))) =
      .ok ((name, x) :: fields, rest) := by
  have hx := hread (name, x) List.mem_cons_self depth
  have hopens := (hplain (name, x) List.mem_cons_self).opens layout depth
  induction fields generalizing name x fuel with
  | nil =>
    refine members_last _ name hblanks (hopens.skipBlank _)
      (hx fuel _ ?_ (by simpa [writeMembers] using hfuel))
    exact endsNumber_append hblanks (by decide) rest
  | cons field fields ih =>
    obtain ⟨other, y⟩ := field
    obtain ⟨gap, hgap, hseparator⟩ := layout.separator_eq depth
    simp only [writeMembers, hseparator, List.length_append, List.length_cons] at hfuel
    obtain ⟨fuel, rfl⟩ : ∃ n, fuel = n + 1 := ⟨fuel - 1, by omega⟩
    have hrest : 2 * (write layout depth y ++ writeMembers layout depth fields).length ≤ fuel := by
      rw [List.length_append]
      omega
    have hfields := ih (fun field h => hplain field (List.mem_cons_of_mem _ h))
      (fun field h => hread field (List.mem_cons_of_mem _ h)) hrest
      (hread (other, y) (by simp) depth) ((hplain (other, y) (by simp)).opens layout depth)
    simp only [writeMembers, hseparator, List.append_assoc]
    refine members_next _ name hgap (hopens.skipBlank _)
      (hx (fuel + 1) _ (endsNumber_cons (by decide) _) (by simp only; omega)) ?_ hfields
    exact skipBlank_cons (by decide) _

end

theorem Fields.put_of_not_mem {name : String} {value : Json} {fields : Fields}
    (h : name ∉ fields.map Prod.fst) : fields.put name value = fields ++ [(name, value)] := by
  induction fields with
  | nil => rfl
  | cons field fields ih =>
    simp only [List.map_cons, List.mem_cons, not_or] at h
    rw [Fields.put, if_neg (Ne.symm h.1), ih h.2]
    rfl

theorem Fields.ofList_of_nodup {fields : Fields} (h : (fields.map Prod.fst).Nodup) :
    Fields.ofList fields = fields := by
  -- The fold starts from nothing, but the induction from any fields that are there already.
  suffices hfold : ∀ done : Fields, ((done ++ fields).map Prod.fst).Nodup →
      fields.foldl (fun all field => all.put field.1 field.2) done = done ++ fields from
    hfold [] h
  clear h
  induction fields with
  | nil => exact fun done _ => (List.append_nil done).symm
  | cons field fields ih =>
    intro done hnodup
    obtain ⟨name, x⟩ := field
    have hnew : name ∉ done.map Prod.fst := by
      intro hmem
      rw [List.map_append, List.nodup_append] at hnodup
      exact hnodup.2.2 name hmem name (by simp) rfl
    have hput : done.put name x = done ++ [(name, x)] := Fields.put_of_not_mem hnew
    have hrest := ih (done ++ [(name, x)]) (by simpa using hnodup)
    rw [List.append_assoc] at hrest
    exact (congrArg (fields.foldl _) hput).trans hrest

theorem value_scalar {c : Char} {cs : List Char} {fuel : Nat} (hquote : c ≠ '"') (hlist : c ≠ '[')
    (hobject : c ≠ '\x7b') : value (fuel + 1) (c :: cs) = scalar (c :: cs) := by
  simp [value, hquote, hlist, hobject]

theorem value_int (n : Int) {rest : List Char} (h : EndsNumber rest) (fuel : Nat) :
    value (fuel + 1) (n.repr.toList ++ rest) = .ok (.int n, rest) := by
  have hscalar := scalar_repr n h
  obtain ⟨d, ds, hd, -, hrepr⟩ := toList_repr n
  rw [← hscalar, hrepr]
  split
  · exact value_scalar (by decide) (by decide) (by decide)
  · refine value_scalar ?_ ?_ ?_ <;>
      · rintro rfl
        exact absurd hd (by decide)

theorem value_list {body more rest : List Char} {fuel : Nat} {xs : List Json}
    (hbody : skipBlank body = more) (hopens : Opens more)
    (hxs : elements fuel more = .ok (xs, rest)) :
    value (fuel + 1) ('[' :: body) = .ok (.list xs, rest) := by
  obtain ⟨c, cs, rfl, -, hclose, -⟩ := hopens
  rw [value, hbody]
  split
  · next heq => exact absurd (List.cons.inj heq).1 hclose
  · rw [hxs]
    rfl

theorem value_object {body cs rest : List Char} {fuel : Nat} {fields : Fields}
    (hbody : skipBlank body = '"' :: cs) (hnames : (fields.map Prod.fst).Nodup)
    (hfields : members fuel ('"' :: cs) = .ok (fields, rest)) :
    value (fuel + 1) ('\x7b' :: body) = .ok (.object fields, rest) := by
  rw [value, hbody]
  split
  · next heq => exact absurd (List.cons.inj heq).1 (by decide)
  · simp only [hfields, bind, Except.bind, Fields.ofList_of_nodup hnames]

/-- Written values are never empty, so that the bound on the steps is never zero. -/
theorem Plain.readsBack_of_succ {x : Json} (h : x.Plain) {layout : Layout}
    (hread : ∀ depth fuel rest, EndsNumber rest → 2 * (write layout depth x).length ≤ fuel + 1 →
      value (fuel + 1) (write layout depth x ++ rest) = .ok (x, rest)) : ReadsBack layout x := by
  intro depth fuel rest hrest hfuel
  obtain ⟨c, cs, hwrite, -⟩ := h.opens layout depth
  cases fuel with
  | zero => simp [hwrite] at hfuel
  | succ fuel => exact hread depth fuel rest hrest hfuel

theorem Plain.readsBack {x : Json} (h : x.Plain) (layout : Layout) : ReadsBack layout x := by
  -- The hypotheses of the induction are about the parts at every depth, so that the depth of the
  -- whole need not be fixed.
  induction h with
  | null => exact Plain.null.readsBack_of_succ fun _ _ _ _ _ => rfl
  | bool b => cases b <;> exact (Plain.bool _).readsBack_of_succ fun _ _ _ _ _ => rfl
  | int n => exact (Plain.int n).readsBack_of_succ fun _ fuel _ hrest _ => value_int n hrest fuel
  | text s =>
    refine (Plain.text s).readsBack_of_succ fun depth fuel rest _ _ => ?_
    simp only [write, writeString, List.cons_append, List.append_assoc, List.nil_append]
    rw [value, string_writeString]
    rfl
  | @list xs hplain ih =>
    refine (Plain.list hplain).readsBack_of_succ fun depth fuel rest _ hfuel => ?_
    cases xs with
    | nil => rfl
    | cons x xs =>
      simp only [write, List.length_append, List.length_cons] at hfuel
      obtain ⟨fuel, rfl⟩ : ∃ n, fuel = n + 1 := ⟨fuel - 1, by omega⟩
      have hinner : 2 * (write layout (depth + 1) x ++
          writeElements layout (depth + 1) xs).length ≤ fuel := by
        rw [List.length_append]
        omega
      have hopens := (hplain x List.mem_cons_self).opens layout (depth + 1)
      have hskip := skipBlank_append (layout.blanks_break (depth + 1))
      simp only [write, List.cons_append, List.append_assoc, List.nil_append]
      exact value_list ((hskip _).trans (hopens.skipBlank _)) (hopens.append _)
        (elements_write hplain ih (layout.blanks_break depth) hinner rest)
  | @object fields names hplain ih =>
    refine (Plain.object names hplain).readsBack_of_succ fun depth fuel rest _ hfuel => ?_
    cases fields with
    | nil => rfl
    | cons field fields =>
      obtain ⟨name, x⟩ := field
      simp only [write, List.length_append, List.length_cons] at hfuel
      obtain ⟨fuel, rfl⟩ : ∃ n, fuel = n + 1 := ⟨fuel - 1, by omega⟩
      have hinner : 2 * (write layout (depth + 1) x ++
          writeMembers layout (depth + 1) fields).length ≤ fuel := by
        rw [List.length_append]
        omega
      have hskip := skipBlank_append (layout.blanks_break (depth + 1))
      have hfields := members_write hplain ih (layout.blanks_break depth) hinner rest
      simp only [write, writeString, List.cons_append, List.append_assoc, List.nil_append]
        at hfields ⊢
      exact value_object ((hskip _).trans (skipBlank_cons (by decide) _)) names hfields

/-- A plain value is read back from its text in any layout. -/
theorem parse_print {x : Json} (h : x.Plain) (layout : Layout) :
    parse (print layout x) = .ok x := by
  have hopens := h.opens layout 0
  have hskip : skipBlank (write layout 0 x) = write layout 0 x := by
    simpa using hopens.skipBlank []
  have hread := h.readsBack layout 0 (2 * (write layout 0 x).length + 2) []
    (fun _ hc => nomatch hc) (Nat.le_add_right _ _)
  rw [List.append_nil] at hread
  have hmark : (write layout 0 x).head? ≠ some '\uFEFF' := by
    obtain ⟨c, cs, hwrite, -, -, hmark⟩ := hopens
    rw [hwrite]
    exact fun hc => hmark (Option.some.inj hc)
  have hdocument : document (write layout 0 x) = .ok x := by
    rw [document, if_neg hmark, hskip, hread]
    rfl
  rw [parse, print, String.toList_ofList, hdocument]
  rfl

theorem newline_not_mem_unitEscape (u : Nat) : '\n' ∉ unitEscape u := by
  have hhex : '\n' ∉ Numeral.hex 4 u := by
    intro hmem
    exact absurd (Numeral.isSome_digit?_of_extend (Numeral.extend_hex 4 u) _ hmem) (by decide)
  simp [unitEscape, hhex]

theorem newline_not_mem_writeChar (asciiOnly : Bool) (c : Char) :
    '\n' ∉ writeChar asciiOnly c := by
  have hwritten := writeChar_written asciiOnly c
  generalize writeChar asciiOnly c = text at hwritten
  cases hwritten with
  | letter letter hletter he hunits =>
    intro hmem
    obtain rfl : '\n' = letter := by simpa using hmem
    exact absurd he (by simp [escaped?])
  | numeric hc =>
    simp only [numericEscape]
    split
    · exact newline_not_mem_unitEscape _
    · exact List.not_mem_append (newline_not_mem_unitEscape _) (newline_not_mem_unitEscape _)
  | plain hquote hback hcontrol hascii =>
    intro hmem
    obtain rfl : '\n' = c := by simpa using hmem
    exact hcontrol (by decide)

theorem newline_not_mem_writeString (asciiOnly : Bool) (s : String) :
    '\n' ∉ writeString asciiOnly s := by
  simp [writeString, newline_not_mem_writeChar]

theorem newline_not_mem_repr (n : Int) : '\n' ∉ n.repr.toList := by
  obtain ⟨d, ds, -, hds, hrepr⟩ := toList_repr n
  have hdigits : '\n' ∉ d :: ds := fun hmem =>
    absurd (isDigit_of_mem_toDigits (hds ▸ hmem)) (by decide)
  rw [hrepr]
  split
  · exact List.not_mem_cons_of_ne_of_not_mem (by decide) hdigits
  · exact hdigits

section

variable {layout : Layout} (hindent : layout.indent = none)

include hindent

theorem newline_not_mem_writeElements {depth : Nat} {xs : List Json}
    (h : ∀ x ∈ xs, '\n' ∉ write layout depth x) : '\n' ∉ writeElements layout depth xs := by
  induction xs with
  | nil => simp [writeElements]
  | cons x xs ih =>
    obtain ⟨hx, hxs⟩ := List.forall_mem_cons.1 h
    simp [writeElements, Layout.separator, hindent, hx, ih hxs]

theorem newline_not_mem_writeMembers {depth : Nat} {fields : Fields}
    (h : ∀ field ∈ fields, '\n' ∉ write layout depth field.2) :
    '\n' ∉ writeMembers layout depth fields := by
  induction fields with
  | nil => simp [writeMembers]
  | cons field fields ih =>
    obtain ⟨hx, hfields⟩ := List.forall_mem_cons.1 h
    simp [writeMembers, Layout.separator, hindent, hx, ih hfields, newline_not_mem_writeString]

/-- Without indentation a plain value is written on one line. -/
theorem Plain.newline_not_mem {x : Json} (h : x.Plain) (depth : Nat) :
    '\n' ∉ write layout depth x := by
  induction h generalizing depth with
  | null => simp [write]
  | bool b => cases b <;> simp [write]
  | int n => exact newline_not_mem_repr n
  | text s => exact newline_not_mem_writeString _ s
  | @list xs hplain ih =>
    cases xs with
    | nil => simp [write]
    | cons x xs =>
      obtain ⟨hx, hxs⟩ := List.forall_mem_cons.1 fun y hy => ih y hy (depth + 1)
      simp [write, Layout.break, hindent, hx, newline_not_mem_writeElements hindent hxs]
  | @object fields names hplain ih =>
    cases fields with
    | nil => simp [write]
    | cons field fields =>
      obtain ⟨hx, hfields⟩ := List.forall_mem_cons.1 fun y hy => ih y hy (depth + 1)
      simp [write, Layout.break, hindent, hx, newline_not_mem_writeMembers hindent hfields,
        newline_not_mem_writeString]

end

end TraceReplay.Json

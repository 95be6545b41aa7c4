import Broadcast.Proofs.Data.Records
import Broadcast.Proofs.Text.Numeral
import Broadcast.Proofs.Toml.Scalars
import Broadcast.Toml.Document

/-!
# Written documents

A document is written as sections, each a header and below it the assignments of integers and texts
to its keys. It is read as the table of these sections in their order, and not at all if one of the
integers has no word of 64 bits.
-/

namespace Broadcast.Toml

/-! ## Names -/

/-- A name can be written without quotes. -/
def IsBareName (name : String) : Prop :=
  name.toList ≠ [] ∧ ∀ c ∈ name.toList, isBare c = true

instance (name : String) : Decidable (IsBareName name) :=
  decidable_of_iff (name.toList ≠ [] ∧ name.toList.all isBare = true)
    (and_congr_right' List.all_eq_true)

theorem ne_of_isBare {c d : Char} (bare : isBare c = true) (foreign : isBare d = false) :
    c ≠ d := by
  rintro rfl
  exact absurd bare (by rw [foreign]; decide)

theorem IsBareName.eq_cons {name : String} (bare : IsBareName name) :
    ∃ c s, name.toList = c :: s ∧ isBare c = true := by
  obtain ⟨nonempty, all⟩ := bare
  obtain ⟨c, s, written⟩ := List.exists_cons_of_ne_nil nonempty
  exact ⟨c, s, written, all c (written ▸ List.mem_cons_self)⟩

theorem IsBareName.append_ne_cons {name : String} (bare : IsBareName name) {d : Char}
    (foreign : isBare d = false) (rest s : List Char) : name.toList ++ rest ≠ d :: s := by
  obtain ⟨c, t, written, first⟩ := bare.eq_cons
  intro same
  rw [written] at same
  exact ne_of_isBare first foreign (List.cons.inj same).1

theorem skipBlanks_bare {name : String} (bare : IsBareName name) (rest : List Char) :
    skipBlanks (name.toList ++ rest) = name.toList ++ rest := by
  obtain ⟨c, s, written, first⟩ := bare.eq_cons
  refine Text.dropWhile_of_stops fun d head => ?_
  rw [written, List.cons_append, List.head?_cons, Option.mem_some_iff] at head
  obtain rfl := head
  simp only [isBlank, Bool.or_eq_false_iff, beq_eq_false_iff_ne]
  exact ⟨ne_of_isBare first rfl, ne_of_isBare first rfl⟩

theorem name?_bare {name : String} (bare : IsBareName name) {rest : List Char}
    (stops : ∀ c ∈ rest.head?, isBare c = false) :
    name? (name.toList ++ rest) = some (name, rest) := by
  unfold name?
  split
  next quote => exact absurd quote (bare.append_ne_cons rfl _ _)
  next apostrophe => exact absurd apostrophe (bare.append_ne_cons rfl _ _)
  next =>
    rw [Text.takeWhile_run bare.2 stops, Text.dropWhile_run bare.2 stops, if_neg bare.1,
      String.ofList_toList]

theorem path?_bare {name : String} (bare : IsBareName name) {rest : List Char}
    (stops : ∀ c ∈ rest.head?, isBare c = false) (last : ∀ c ∈ (skipBlanks rest).head?, c ≠ '.') :
    path? (name.toList ++ rest) = some ([name], skipBlanks rest) := by
  have short : ([name] : Path).length < depthLimit := (by decide : 1 < 80)
  have names (fuel : Nat) :
      names? (fuel + 1) (name.toList ++ rest) = some ([name], skipBlanks rest) := by
    rw [names?, skipBlanks_bare bare, name?_bare bare stops]
    simp only [Option.bind_eq_bind, Option.bind_some]
    split
    next dot => exact absurd rfl (last '.' (by rw [dot]; rfl))
    next => rfl
  obtain ⟨c, s, written, -⟩ := bare.eq_cons
  have positive : (name.toList ++ rest).length = (s ++ rest).length + 1 := by
    rw [written, List.cons_append, List.length_cons]
  rw [path?, positive, names, Option.filter_some, if_pos (decide_eq_true short)]

/-! ## Lines -/

/-- A value that is written on a line. -/
inductive Literal
  | int (z : Int)
  | text (s : String)
deriving DecidableEq

namespace Literal

/-- The written form of a value. -/
def chars : Literal → List Char
  | int z => (toString z).toList
  | text s => quoted s

/-- The value as it stands in a document. -/
def toData : Literal → Data
  | int z => .int z
  | text s => .text s

/-- The value that its written form is read as. -/
def data? : Literal → Option Data
  | int z => int64? z
  | text s => some (.text s)

/-- An integer has a word of 64 bits. -/
def HasWord : Literal → Prop
  | int z => -(2 ^ 63) ≤ z ∧ z < 2 ^ 63
  | text _ => True

theorem data?_eq_some {value : Literal} (word : value.HasWord) :
    value.data? = some value.toData := by
  cases value with
  | int z => exact if_pos word
  | text s => rfl

theorem data?_eq_none {value : Literal} (wordless : ¬value.HasWord) : value.data? = none := by
  cases value with
  | int z => exact if_neg wordless
  | text s => exact absurd trivial wordless

theorem value?_chars (fuel depth : Nat) (value : Literal) (rest : List Char) :
    value? (fuel + 1) depth (value.chars ++ '\n' :: rest) =
      value.data?.map (·, '\n' :: rest) := by
  cases value with
  | int z => exact value?_integerLine fuel depth z rest
  | text s => exact value?_quoted fuel depth s rest

theorem skipBlanks_chars (value : Literal) (rest : List Char) :
    skipBlanks (value.chars ++ rest) = value.chars ++ rest := by
  refine Text.dropWhile_of_stops ?_
  cases value with
  | text s =>
      rintro _ ⟨⟩
      rfl
  | int z =>
      obtain ⟨c, s, written, starts⟩ := Text.toString_eq_cons z
      rw [chars, written]
      rintro _ ⟨⟩
      rcases starts with digit | rfl
      · simp only [isBlank, Bool.or_eq_false_iff, beq_eq_false_iff_ne]
        constructor <;>
        · rintro rfl
          exact absurd digit (by decide)
      · rfl

end Literal

/-- A line of a document. -/
inductive Line
  | header (name : String)
  | entry (name : String) (value : Literal)

namespace Line

/-- The name on a line. -/
def name : Line → String
  | header name | entry name _ => name

/-- The written form of a line. -/
def chars : Line → List Char
  | header name => '[' :: (name.toList ++ ']' :: ['\n'])
  | entry name value => name.toList ++ ' ' :: '=' :: ' ' :: (value.chars ++ ['\n'])

/-- What a line is read as. -/
def statement? : Line → Option Statement
  | header name => some (.header [name])
  | entry name value => value.data?.map (.assignment [name])

/-- What a line states. -/
def statement : Line → Statement
  | header name => .header [name]
  | entry name value => .assignment [name] value.toData

end Line

theorem lineEnd?_newline (rest : List Char) : lineEnd? ('\n' :: rest) = some rest := rfl

theorem header?_bare {name : String} (bare : IsBareName name) (rest : List Char) :
    header? (name.toList ++ ']' :: rest) = some (.header [name], rest) := by
  have path : path? (name.toList ++ ']' :: rest) = some ([name], ']' :: rest) :=
    path?_bare bare (by rintro _ ⟨⟩; rfl) (by rintro _ ⟨⟩; decide)
  unfold header?
  split
  next bracket => exact absurd bracket (bare.append_ne_cons rfl _ _)
  next =>
    rw [path]
    rfl

theorem assignment?_bare {name : String} (bare : IsBareName name) (value : Literal)
    (rest : List Char) :
    assignment? (name.toList ++ ' ' :: '=' :: ' ' :: (value.chars ++ '\n' :: rest)) =
      value.data?.map fun d => (.assignment [name] d, '\n' :: rest) := by
  have path : path? (name.toList ++ ' ' :: '=' :: ' ' :: (value.chars ++ '\n' :: rest)) =
      some ([name], '=' :: ' ' :: (value.chars ++ '\n' :: rest)) :=
    path?_bare bare (by rintro _ ⟨⟩; rfl) (by rintro _ ⟨⟩; decide)
  have blank : skipBlanks (' ' :: (value.chars ++ '\n' :: rest)) =
      value.chars ++ '\n' :: rest := value.skipBlanks_chars _
  simp only [assignment?, path, behind?, if_true, blank, Option.bind_eq_bind, Option.bind_some,
    value.value?_chars]
  cases value.data? <;> rfl

theorem newline?_bare {name : String} (bare : IsBareName name) (rest : List Char) :
    newline? (name.toList ++ rest) = none := by
  unfold newline?
  split
  next line => exact absurd line (bare.append_ne_cons rfl _ _)
  next line => exact absurd line (bare.append_ne_cons rfl _ _)
  next => rfl

theorem statements?_header {name : String} (bare : IsBareName name) (fuel : Nat)
    (rest : List Char) :
    statements? (fuel + 1) ((Line.header name).chars ++ rest) =
      (statements? fuel rest).map (.header [name] :: ·) := by
  have front (s : List Char) : skipBlanks ('[' :: s) = '[' :: s := rfl
  simp only [Line.chars, List.cons_append, List.append_assoc, List.nil_append, statements?,
    front, header?_bare bare, lineEnd?_newline, Option.bind_eq_bind, Option.bind_some,
    Option.map_eq_bind]
  rfl

theorem statements?_entry {name : String} (bare : IsBareName name) (value : Literal) (fuel : Nat)
    (rest : List Char) :
    statements? (fuel + 1) ((Line.entry name value).chars ++ rest) =
      value.data?.bind fun d => (statements? fuel rest).map (.assignment [name] d :: ·) := by
  simp only [Line.chars, List.cons_append, List.append_assoc, List.nil_append, statements?,
    skipBlanks_bare bare]
  split
  next empty => exact absurd (List.append_eq_nil_iff.mp empty).1 bare.1
  next hash => exact absurd hash (bare.append_ne_cons rfl _ _)
  next bracket => exact absurd bracket (bare.append_ne_cons rfl _ _)
  next =>
    rw [newline?_bare bare, assignment?_bare bare]
    cases value.data? with
    | none => rfl
    | some d =>
        simp only [Option.bind_eq_bind, Option.bind_some, Option.map_eq_bind]
        rfl

theorem statements?_line {line : Line} (bare : IsBareName line.name) (fuel : Nat)
    (rest : List Char) :
    statements? (fuel + 1) (line.chars ++ rest) =
      line.statement?.bind fun statement => (statements? fuel rest).map (statement :: ·) := by
  cases line with
  | header name => exact statements?_header bare fuel rest
  | entry name value =>
      refine (statements?_entry bare value fuel rest).trans ?_
      rw [Line.statement?, Option.bind_map]
      rfl

/-- Lines are read as what they state, if all of them state something. -/
theorem statements?_lines {lines : List Line} (bare : ∀ line ∈ lines, IsBareName line.name)
    {fuel : Nat} (enough : lines.length < fuel) :
    statements? fuel (lines.flatMap Line.chars) = lines.mapM Line.statement? := by
  induction lines generalizing fuel with
  | nil =>
      obtain ⟨fuel, rfl⟩ := Nat.exists_eq_add_one_of_ne_zero (Nat.ne_of_gt enough)
      rfl
  | cons line lines ih =>
      obtain ⟨fuel, rfl⟩ := Nat.exists_eq_add_one_of_ne_zero (Nat.ne_zero_of_lt enough)
      have inner := ih (fun l member => bare l (.tail line member))
        (Nat.lt_of_succ_lt_succ enough)
      rw [List.flatMap_cons, statements?_line (bare line List.mem_cons_self), inner,
        List.mapM_cons]
      cases line.statement? with
      | none => rfl
      | some statement => cases lines.mapM Line.statement? <;> rfl

theorem length_le_length_chars (lines : List Line) :
    lines.length ≤ (lines.flatMap Line.chars).length := by
  induction lines with
  | nil => exact Nat.le_refl 0
  | cons line lines ih =>
      have positive : 0 < line.chars.length := by
        cases line with
        | header name => exact Nat.succ_pos _
        | entry name value =>
            simp only [Line.chars, List.length_append, List.length_cons]
            omega
      rw [List.flatMap_cons, List.length_append, List.length_cons]
      omega

/-- A document of lines is built from what they state. -/
theorem parse?_lines {lines : List Line} (bare : ∀ line ∈ lines, IsBareName line.name) :
    parse? (String.ofList (lines.flatMap Line.chars)) =
      (lines.mapM Line.statement?).bind fun statements =>
        (build [] [] statements).map fun fields => .table (Node.fieldsToData fields) := by
  have mark (s : List Char) : lines.flatMap Line.chars ≠ '\ufeff' :: s := by
    intro same
    cases lines with
    | nil => cases same
    | cons line lines =>
        have bare := bare line List.mem_cons_self
        cases line with
        | header name => exact absurd (List.cons.inj same).1 (by decide)
        | entry name value =>
            rw [List.flatMap_cons, Line.chars, List.append_assoc] at same
            exact bare.append_ne_cons rfl _ _ same
  have enough := Nat.lt_add_one_of_le (length_le_length_chars lines)
  unfold parse?
  rw [String.toList_ofList]
  split
  next s same => exact absurd same (mark s)
  next =>
    simp only [statements?_lines bare enough, Option.bind_eq_bind, Option.map_eq_bind]
    rfl

/-! ## Building -/

theorem alter_append {name : String} {fields : List (String × Node)}
    (apart : name ∉ fields.map Prod.fst) (f : Option Node → Option Node)
    (more : List (String × Node)) :
    alter name f (fields ++ more) = (alter name f more).map (fields ++ ·) := by
  induction fields with
  | nil => simp
  | cons field fields ih =>
      obtain ⟨other, node⟩ := field
      rw [List.map_cons, List.mem_cons, not_or] at apart
      rw [List.cons_append, alter, if_neg (Ne.symm apart.1), ih apart.2, Option.map_map]
      rfl

theorem alter_new {name : String} {fields : List (String × Node)}
    (new : name ∉ fields.map Prod.fst) (f : Option Node → Option Node) :
    alter name f fields = (f none).map fun node => fields ++ [(name, node)] := by
  have added := alter_append new f []
  rw [List.append_nil, alter, Option.map_map] at added
  exact added

theorem assign_append {key : String} {fields : List (String × Node)}
    (new : key ∉ fields.map Prod.fst) (value : Data) :
    assign value [key] fields = some (fields ++ [(key, .value value)]) := by
  rw [assign, alter_new new, Option.map_some]

theorem openTable_append {name : String} {fields : List (String × Node)}
    (new : name ∉ fields.map Prod.fst) :
    openTable [name] fields = some (fields ++ [(name, .table false false [])]) :=
  alter_new new _

theorem within_append {name : String} {done : List (String × Node)}
    (apart : name ∉ done.map Prod.fst) (f : List (String × Node) → Option (List (String × Node)))
    (isOpen dotted : Bool) (inner : List (String × Node)) :
    within f [name] (done ++ [(name, .table isOpen dotted inner)]) =
      (f inner).map fun inner => done ++ [(name, .table isOpen dotted inner)] := by
  simp [within, alter_append apart, alter]
  rfl

/-- A section of a document. -/
structure Section where
  name : String
  entries : List (String × Literal)

namespace Section

/-- The lines of a section. -/
def lines (part : Section) : List Line :=
  .header part.name :: part.entries.map fun entry => .entry entry.1 entry.2

/-- The fields of the table that a section is. -/
def fields (part : Section) : List (String × Data) :=
  part.entries.map fun entry => (entry.1, entry.2.toData)

/-- The table of a section while a document is built. -/
def node (part : Section) : Node :=
  .table false false (part.entries.map fun entry => (entry.1, .value entry.2.toData))

/-- What a section states. -/
def statements (part : Section) : List Statement :=
  part.lines.map Line.statement

theorem statements_eq (part : Section) :
    part.statements = .header [part.name] ::
      part.entries.map fun entry => .assignment [entry.1] entry.2.toData := by
  rw [statements, lines, List.map_cons, List.map_map]
  rfl

end Section

theorem build_assignments {name : String} {done : List (String × Node)}
    (apart : name ∉ done.map Prod.fst) (entries : List (String × Literal))
    (inner : List (String × Node)) (distinct : (inner.map Prod.fst ++ entries.map Prod.fst).Nodup)
    (more : List Statement) :
    build [name] (done ++ [(name, .table false false inner)])
        (entries.map (fun entry => .assignment [entry.1] entry.2.toData) ++ more) =
      build [name] (done ++ [(name, .table false false
        (inner ++ entries.map fun entry => (entry.1, .value entry.2.toData)))]) more := by
  induction entries generalizing inner with
  | nil => simp
  | cons entry entries ih =>
      obtain ⟨key, value⟩ := entry
      have new : key ∉ inner.map Prod.fst := fun member =>
        (List.nodup_append.mp distinct).2.2 key member key List.mem_cons_self rfl
      have distinct' : ((inner ++ [(key, Node.value value.toData)]).map Prod.fst ++
          entries.map Prod.fst).Nodup := by
        simpa using distinct
      rw [List.map_cons, List.cons_append, build, within_append apart, assign_append new,
        Option.map_some, Option.bind_eq_bind, Option.bind_some, ih _ distinct', List.append_assoc,
        List.map_cons, List.singleton_append]

/-- A document of sections with names of their own, in each of which no key stands twice, is built
as these sections. -/
theorem build_sections {sections : List Section}
    (distinct : ∀ part ∈ sections, (part.entries.map Prod.fst).Nodup) (current : Path)
    (done : List (String × Node))
    (apart : (done.map Prod.fst ++ sections.map Section.name).Nodup) :
    build current done (sections.flatMap Section.statements) =
      some (done ++ sections.map fun part => (part.name, part.node)) := by
  induction sections generalizing current done with
  | nil => simp [build]
  | cons part sections ih =>
      have new : part.name ∉ done.map Prod.fst := fun member =>
        (List.nodup_append.mp apart).2.2 _ member _ List.mem_cons_self rfl
      have apart' : ((done ++ [(part.name, part.node)]).map Prod.fst ++
          sections.map Section.name).Nodup := by
        simpa using apart
      have keys := distinct part List.mem_cons_self
      rw [List.flatMap_cons, part.statements_eq, List.cons_append, build, openTable_append new,
        Option.bind_eq_bind, Option.bind_some, build_assignments new part.entries [] keys,
        List.nil_append]
      rw [← Section.node, ih (fun p member => distinct p (.tail part member)) _ _ apart',
        List.append_assoc, List.map_cons, List.singleton_append]

theorem fieldsToData_map {α : Type} (items : List α) (name : α → String) (node : α → Node) :
    Node.fieldsToData (items.map fun item => (name item, node item)) =
      items.map fun item => (name item, (node item).toData) := by
  induction items with
  | nil => rfl
  | cons item items ih =>
      rw [List.map_cons, Node.fieldsToData, ih]
      rfl

theorem Section.toData_node (part : Section) : part.node.toData = .table part.fields := by
  rw [node, Node.toData, fieldsToData_map]
  rfl

/-! ## Documents -/

/-- The document that is written as some sections. -/
def document (sections : List Section) : String :=
  String.ofList ((sections.flatMap Section.lines).flatMap Line.chars)

/-- The names of a section and of its entries can be written without quotes. -/
def Section.IsBare (part : Section) : Prop :=
  IsBareName part.name ∧ ∀ entry ∈ part.entries, IsBareName entry.1

theorem isBareName_of_mem_lines {sections : List Section}
    (bare : ∀ part ∈ sections, part.IsBare) :
    ∀ line ∈ sections.flatMap Section.lines, IsBareName line.name := by
  intro line member
  obtain ⟨part, there, member⟩ := List.mem_flatMap.mp member
  rcases List.mem_cons.mp member with rfl | member
  · exact (bare part there).1
  · obtain ⟨entry, inside, rfl⟩ := List.mem_map.mp member
    exact (bare part there).2 entry inside

/-- A document is read as the table of its sections, if all of its integers have words. -/
theorem parse?_document {sections : List Section} (bare : ∀ part ∈ sections, part.IsBare)
    (apart : (sections.map Section.name).Nodup)
    (distinct : ∀ part ∈ sections, (part.entries.map Prod.fst).Nodup)
    (words : ∀ part ∈ sections, ∀ entry ∈ part.entries, entry.2.HasWord) :
    parse? (document sections) =
      some (.table (sections.map fun part => (part.name, .table part.fields))) := by
  have stated : (sections.flatMap Section.lines).mapM Line.statement? =
      some (sections.flatMap Section.statements) := by
    rw [Data.mapM_eq_some (g := Line.statement), List.map_flatMap]
    · rfl
    · intro line member
      obtain ⟨part, there, member⟩ := List.mem_flatMap.mp member
      rcases List.mem_cons.mp member with rfl | member
      · rfl
      · obtain ⟨entry, inside, rfl⟩ := List.mem_map.mp member
        rw [Line.statement?, Literal.data?_eq_some (words part there entry inside), Option.map_some]
        rfl
  rw [document, parse?_lines (isBareName_of_mem_lines bare), stated, Option.bind_some,
    build_sections distinct [] [] apart, Option.map_some, List.nil_append, fieldsToData_map]
  simp only [Section.toData_node]

theorem parse?_document_eq_none {sections : List Section}
    (bare : ∀ part ∈ sections, part.IsBare) {part : Section} (there : part ∈ sections)
    {entry : String × Literal} (inside : entry ∈ part.entries) (wordless : ¬entry.2.HasWord) :
    parse? (document sections) = none := by
  have line : Line.entry entry.1 entry.2 ∈ sections.flatMap Section.lines :=
    List.mem_flatMap.mpr ⟨part, there, .tail _ (List.mem_map.mpr ⟨entry, inside, rfl⟩)⟩
  have silent : (Line.entry entry.1 entry.2).statement? = none := by
    rw [Line.statement?, Literal.data?_eq_none wordless, Option.map_none]
  rw [document, parse?_lines (isBareName_of_mem_lines bare), Data.mapM_eq_none line silent,
    Option.bind_none]

end Broadcast.Toml

import JsonUnpack.Proofs.DeclarationCoverage

/-! How far a reference can be relied on. Other variables may take its name again, but not before
the last use of it: what is declared in between lies below it and so has a longer name. The variable
of the whole document is not taken again at all. -/
namespace JsonUnpack

open Json (Value)
open Program (rootKind)

namespace Json.Value

variable {document : Value}

/-- A node below one with a stem has a name below that stem. -/
theorem below_stemAt {path : List Step} {stem : String} (held : document.stemAt path = some stem)
    (step : Step) (more : List Step) :
    ∃ name, document.stemAt (path ++ step :: more) = some name ∧ Below stem name := by
  induction more using List.reverseRecOn with
  | nil =>
    refine ⟨Name.child (some stem) step, ?_, child_below stem step⟩
    rw [stemAt_append, held]
  | append_singleton more last ih =>
    obtain ⟨name, upTo, below⟩ := ih
    refine ⟨Name.child (some name) last, ?_, below_trans below (child_below name last)⟩
    rw [← List.cons_append, ← List.append_assoc, stemAt_append, upTo]

theorem below_nameAt {path : List Step} (stem : (document.stemAt path).isSome) (step : Step)
    (more : List Step) : Below (document.nameAt path) (document.nameAt (path ++ step :: more)) := by
  obtain ⟨stem, held⟩ := Option.isSome_iff_exists.mp stem
  obtain ⟨name, lower, below⟩ := below_stemAt held step more
  rw [nameAt, nameAt, held, lower]
  exact below

/-- Only a root can be without a stem. -/
theorem stemAt_eq_none {path : List Step} (missing : document.stemAt path = none) : path = [] := by
  rcases List.eq_nil_or_concat' path with rfl | ⟨front, step, rfl⟩
  · rfl
  · rw [stemAt_append] at missing
    cases missing

/-- A node whose name is a single word is a member of the root object, and the word is its key. -/
theorem path_of_word {word : String}
    (letters : word.toList.all (fun letter => letter ≠ '_' && !letter.isDigit) = true)
    {path : List Step} {node : Value} (found : document.at? path = some node)
    (stem : (document.stemAt path).isSome) (same : document.nameAt path = word) :
    path = [.key word] := by
  subst same
  have joined : '_' ∉ (document.nameAt path).toList := by
    intro member
    cases List.all_eq_true.mp letters '_' member
  cases document with
  | null | scalar =>
    rcases path with _ | ⟨step, rest⟩
    · cases stem
    · cases step <;> cases found
  | array items =>
    rcases path with _ | ⟨step, rest⟩
    · have underscore : '_' ∈ Program.rootArrayStem.toList := by decide
      exact absurd underscore joined
    · have below := @below_nameAt (array items) [] rfl step rest
      exact absurd below (not_below_word letters _)
  | object members =>
    rcases path with _ | ⟨_ | k, rest⟩
    · cases stem
    · cases found
    · rcases rest with _ | ⟨step, rest⟩
      · change [Step.key k] = [.key (Name.sanitize k)]
        rw [sanitize_word joined]
      · have below : Below ((object members).nameAt [.key k])
            ((object members).nameAt (.key k :: step :: rest)) := below_nameAt rfl step rest
        exact absurd below (not_below_word letters _)

/-- No node below the root takes the name of the document, unless a member of the root has that very
name as its key. -/
theorem nameAt_ne_root (unshadowed : document.child? (.key Name.root) = none) {path : List Step}
    {node : Value} (found : document.at? path = some node) (lower : path ≠ []) :
    document.nameAt path ≠ Name.root := by
  intro same
  have stem : (document.stemAt path).isSome :=
    Option.isSome_iff_ne_none.mpr fun missing => lower (stemAt_eq_none missing)
  cases path_of_word rfl found stem same
  rw [at?, unshadowed] at found
  cases found

end Json.Value

namespace Settings

variable {settings : Settings} {document : Value}

theorem stem_of_named (composite : (rootKind document).isSome) {path : List Step}
    (named : settings.named document path = true) : (document.stemAt path).isSome := by
  have nonempty := Value.stemAt_any_ne_empty composite path
  rw [Settings.named] at named
  cases found : document.at? path with
  | none =>
    rw [found] at named
    cases named
  | some node =>
    rw [found, Option.any_some, Bool.and_eq_true] at named
    cases stem : document.stemAt path with
    | none =>
      rw [stem, named.2] at nonempty
      cases nonempty
    | some stem => rfl

/-- A node is reached from the variable of the document or from that of a node above it. -/
theorem target_cases (settings : Settings) (document : Value) (path : List Step) :
    settings.targetAt document path = ⟨Name.root, path⟩ ∨
      ∃ front rest, path = front ++ rest ∧ rest ≠ [] ∧ settings.named document front = true ∧
        settings.targetAt document path = ⟨document.nameAt front, rest⟩ := by
  rw [targetAt]
  cases last : settings.lastNamed document path with
  | none => exact .inl rfl
  | some n =>
    have named := List.find?_some last
    have inside : n < path.length :=
      List.mem_range.mp (List.mem_reverse.mp (List.mem_of_find?_eq_some last))
    refine .inr ⟨path.take n, path.drop n, (List.take_append_drop n path).symm, ?_, named, rfl⟩
    intro nothing
    have := List.drop_eq_nil_iff.mp nothing
    omega

/-- Between a reached node and one further down that is reached come only nodes below the first
one. -/
theorem reached_between {front rest : List Step} {node : Value}
    {older newer : List (List Step × Value)} (further : rest ≠ [])
    (split : settings.reachedNodes document = older ++ (front ++ rest, node) :: newer) :
    ∃ earlier parent between, older = earlier ++ (front, parent) :: between ∧
      ∀ n ∈ between, ∃ step more, n.1 = front ++ step :: more := by
  obtain ⟨before, _, all, keptBefore, keptAfter⟩ := List.filter_eq_append_iff.mp split
  obtain ⟨skipped, after, rfl, dropped, reached, _⟩ := List.filter_eq_cons_iff.mp keptAfter
  rw [← List.append_assoc] at all
  obtain ⟨earlier, parent, between, upTo, lower⟩ := Value.nodes_between further all
  have kept : older = (before ++ skipped).filter fun n => settings.reached document n.1 := by
    rw [List.filter_append, keptBefore, List.filter_eq_nil_iff.mpr dropped, List.append_nil]
  rw [upTo, List.filter_append, List.filter_cons, if_pos (reached_of_append reached)] at kept
  exact ⟨_, parent, _, kept, fun n member => lower n (List.mem_of_mem_filter member)⟩

/-- What a reader sees of the declaration of a node. -/
def lineAt? (settings : Settings) (document : Value) (node : List Step × Value) : Option Line :=
  (settings.statementAt? document node).bind Statement.line?

private theorem line_of_statement {node : List Step × Value} {s : Statement}
    (declared : settings.statementAt? document node = some s) : ∃ line, s.line? = some line := by
  obtain ⟨path, v⟩ := node
  cases v with
  | null => cases declared
  | scalar s =>
    cases declared
    exact ⟨_, rfl⟩
  | array | object =>
    obtain ⟨_, same⟩ := Option.ite_none_right_eq_some.mp declared
    cases same
    exact ⟨_, rfl⟩

theorem line_at_cases {node : List Step × Value} {line : Line}
    (declared : settings.lineAt? document node = some line) :
    (∃ s, node.2 = .scalar s ∧ line = ⟨.leaf (.ofScalar s), document.nameAt node.1,
      settings.targetAt document node.1, some s.compact⟩) ∨
    (∃ kind, rootKind node.2 = some kind ∧ settings.named document node.1 = true ∧
      line = ⟨.reference kind, document.nameAt node.1, settings.targetAt document node.1,
        none⟩) := by
  obtain ⟨path, v⟩ := node
  cases v with
  | null => cases declared
  | scalar s =>
    cases declared
    exact .inl ⟨s, rfl, rfl⟩
  | array | object =>
    rw [lineAt?, statementAt?] at declared
    cases named : settings.named document path with
    | false => simp [named] at declared
    | true =>
      simp only [named, ↓reduceIte, Option.bind_some] at declared
      cases declared
      exact .inr ⟨_, rfl, rfl, rfl⟩

/-- A node that is declared has a stem. -/
theorem stem_of_declared (composite : (rootKind document).isSome) {path : List Step} {node : Value}
    {line : Line} (found : document.at? path = some node)
    (declared : settings.lineAt? document (path, node) = some line) :
    (document.stemAt path).isSome := by
  cases held : document.stemAt path with
  | some stem => rfl
  | none =>
    cases Value.stemAt_eq_none held
    cases found
    rcases line_at_cases declared with ⟨_, leaf, _⟩ | ⟨_, _, named, _⟩
    · cases leaf
      cases composite
    · rw [← held]
      exact stem_of_named composite named

theorem line_at_reference {path : List Step} {node : Value} (found : document.at? path = some node)
    (named : settings.named document path = true) :
    ∃ kind, settings.lineAt? document (path, node) = some
      ⟨.reference kind, document.nameAt path, settings.targetAt document path, none⟩ := by
  cases node with
  | null | scalar =>
    rw [Settings.named, found, Option.any_some, Bool.and_eq_true] at named
    exact absurd (of_decide_eq_true named.1) (Nat.not_lt_zero _)
  | array => exact ⟨.array, by simp [lineAt?, statementAt?, named, Statement.line?]⟩
  | object => exact ⟨.object, by simp [lineAt?, statementAt?, named, Statement.line?]⟩

/-- No declaration takes the name of the document. -/
theorem declared_ne_root (composite : (rootKind document).isSome)
    (unshadowed : document.child? (.key Name.root) = none) {path : List Step} {node : Value}
    {line : Line} (found : document.at? path = some node)
    (declared : settings.lineAt? document (path, node) = some line) :
    document.nameAt path ≠ Name.root := by
  by_cases lower : path = []
  · cases lower
    cases found
    cases document with
    | null | scalar => cases composite
    | array items =>
      intro same
      have other : Program.rootArrayStem ≠ Name.root := by decide
      exact other same
    | object members =>
      rcases line_at_cases declared with ⟨_, leaf, _⟩ | ⟨_, _, named, _⟩
      · cases leaf
      · cases stem_of_named composite named
  · exact Value.nameAt_ne_root unshadowed found lower

theorem line_at_eq {node : List Step × Value} {line : Line}
    (declared : settings.lineAt? document node = some line) :
    line.name = document.nameAt node.1 ∧ line.target = settings.targetAt document node.1 := by
  rcases line_at_cases declared with ⟨_, _, rfl⟩ | ⟨_, _, _, rfl⟩
  · exact ⟨rfl, rfl⟩
  · exact ⟨rfl, rfl⟩

theorem at_of_mem_reached (distinct : document.KeysDistinct) {node : List Step × Value}
    (member : node ∈ settings.reachedNodes document) : document.at? node.1 = some node.2 :=
  Value.at?_of_mem_nodes distinct (List.mem_of_mem_filter member)

/-- A reached node that is declared has a stem and takes the name it gets from there. -/
theorem name_of_declared (composite : (rootKind document).isSome) (distinct : document.KeysDistinct)
    {node : List Step × Value} {line : Line} (member : node ∈ settings.reachedNodes document)
    (declared : settings.lineAt? document node = some line) :
    document.at? node.1 = some node.2 ∧ (document.stemAt node.1).isSome ∧
      line.name = document.nameAt node.1 := by
  have found := at_of_mem_reached distinct member
  exact ⟨found, stem_of_declared composite found declared, (line_at_eq declared).1⟩

/-- The member expression for a reached node starts from the variable of the document, or from the
name of a node above it; and the last declaration of that name is the reference for that node. -/
theorem reference_in_scope (composite : (rootKind document).isSome)
    (distinct : document.KeysDistinct) {older newer : List (List Step × Value)} {path : List Step}
    {node : Value} (split : settings.reachedNodes document = older ++ (path, node) :: newer) :
    settings.targetAt document path = ⟨Name.root, path⟩ ∨
      ∃ front rest earlier parent between kind, path = front ++ rest ∧ rest ≠ [] ∧
        older = earlier ++ (front, parent) :: between ∧ document.at? front = some parent ∧
        settings.targetAt document path = ⟨document.nameAt front, rest⟩ ∧
        settings.lineAt? document (front, parent) = some
          ⟨.reference kind, document.nameAt front, settings.targetAt document front, none⟩ ∧
        ∀ n ∈ between, document.nameAt n.1 ≠ document.nameAt front := by
  rcases target_cases settings document path with target |
    ⟨front, rest, rfl, further, named, target⟩
  · exact .inl target
  · obtain ⟨earlier, parent, between, rfl, lower⟩ := reached_between further split
    have listed : (front, parent) ∈ settings.reachedNodes document := by
      rw [split]
      exact List.mem_append_left _ (List.mem_append_right _ List.mem_cons_self)
    have found : document.at? front = some parent := at_of_mem_reached distinct listed
    obtain ⟨kind, reference⟩ := line_at_reference found named
    refine .inr ⟨front, rest, earlier, parent, between, kind, rfl, further, rfl, found, target,
      reference, ?_⟩
    intro n member same
    obtain ⟨step, more, path⟩ := lower n member
    have below := Value.below_nameAt (stem_of_named composite named) step more
    rw [← path, same] at below
    exact not_below_self _ below

theorem plain_target (settings : Settings) (document : Value) (path : List Step) :
    PlainName (settings.targetAt document path).base := by
  rcases target_cases settings document path with target | ⟨front, _, _, _, _, target⟩
  · rw [target]
    exact plain_root
  · rw [target]
    exact Value.plain_nameAt document front

private theorem line_texts (settings : Settings) (bufferSize : String)
    (composite : (rootKind document).isSome) (distinct : document.KeysDistinct) :
    (Program.linesAfterParse settings bufferSize document).filter (· ≠ "") =
      ((settings.reachedNodes document).filterMap (settings.lineAt? document)).map fun line =>
        indentation 1 ++ line.text := by
  have body := statements_body settings composite distinct
  rw [Program.lines_of_body, body, List.filterMap_filterMap]
  · rfl
  · intro s member
    rw [body] at member
    obtain ⟨node, _, declared⟩ := List.mem_filterMap.mp member
    exact line_of_statement declared

/-- A program has one line for each node that is declared, and it is read as that line. -/
theorem program_declares (bufferSize : String) (composite : (rootKind document).isSome)
    (distinct : document.KeysDistinct) :
    Program.Declares settings bufferSize document
      ((settings.reachedNodes document).filterMap (settings.lineAt? document)) := by
  have texts := line_texts settings bufferSize composite distinct
  refine ⟨?_, texts⟩
  rw [Line.readAll?, texts]
  apply read_lines
  intro line member
  obtain ⟨node, _, declared⟩ := List.mem_filterMap.mp member
  obtain ⟨name, target⟩ := line_at_eq declared
  rw [name, target]
  exact ⟨Value.plain_nameAt _ _, plain_target _ _ _⟩

/-- Of a document without children nothing is declared. -/
theorem declares_nothing (bufferSize : String) (childless : rootKind document = none) :
    Program.Declares settings bufferSize document [] := by
  have nothing : Program.body settings document = [] := by
    cases document with
    | null | scalar => rfl
    | array | object => cases childless
  have written := Program.nonempty_lines settings bufferSize document
  rw [nothing] at written
  refine ⟨?_, written⟩
  rw [Line.readAll?, written]
  rfl

/-- Whatever its root is, a program declares the reached nodes of a document with children. -/
theorem declared_lines (settings : Settings) (bufferSize : String)
    (distinct : document.KeysDistinct) :
    ∃ lines, Program.Declares settings bufferSize document lines ∧
      ∀ line, line ∈ lines ↔ (rootKind document).isSome ∧
        ∃ node ∈ settings.reachedNodes document, settings.lineAt? document node = some line := by
  cases composite : rootKind document with
  | none => exact ⟨[], declares_nothing bufferSize composite, by simp⟩
  | some kind =>
    refine ⟨_, program_declares bufferSize (by rw [composite]; rfl) distinct, ?_⟩
    simp [List.mem_filterMap]

end Settings

end JsonUnpack

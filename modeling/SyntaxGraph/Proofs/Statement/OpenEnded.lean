import SyntaxGraph.Proofs.Course.TranslationUnit
import SyntaxGraph.Proofs.Graph.Extension
import SyntaxGraph.Proofs.Program.Read

/-!
# An `else` belongs to the nearest `if`

A statement is open-ended if an `else` behind it would be its own: an `if` without one is,
and so is a statement that ends with an open-ended one.  Behind an open-ended statement that
has been read no `else` follows, since reading would have gone on with it.  So what stands
between an `if` and its `else` is never open-ended.
-/

set_option autoImplicit false

namespace SyntaxGraph

/-- The statement with which a form ends, if it ends with one; an `if` without an `else` is
left out. -/
def Stmt.Form.final? : Stmt.Form → Option StmtId
  | .ifElse _ _ otherwise => otherwise
  | .whileLoop _ body | .forLoop _ _ _ _ body | .switch _ body => some body
  | _ => none

/-- A form that ends with no statement, and is no `if`. -/
def Stmt.Form.IsLeaf (form : Stmt.Form) : Prop :=
  form.final? = none ∧ ∀ condition body otherwise, form ≠ .ifElse condition body otherwise

namespace Arenas

/-- An `else` behind the statement would be its own. -/
inductive OpenEnded (a : Arenas) : StmtId → Prop
  | bare {id : StmtId} {stmt : Stmt} {condition : ExprId} {body : StmtId}
      (found : a.stmt? id = some stmt) (form : stmt.form = .ifElse condition body none) :
      OpenEnded a id
  | inside {id final : StmtId} {stmt : Stmt} (found : a.stmt? id = some stmt)
      (ends : stmt.form.final? = some final) (rest : OpenEnded a final) : OpenEnded a id

/-- A statement of the form is open-ended. -/
def OpenForm (a : Arenas) (form : Stmt.Form) : Prop :=
  (∃ condition body, form = .ifElse condition body none) ∨
    ∃ final, form.final? = some final ∧ a.OpenEnded final

/-- The statement with which the form ends is there, and the one in front of its `else` is
there and not open-ended. -/
structure Settles (a : Arenas) (form : Stmt.Form) : Prop where
  ends {final : StmtId} (ends : form.final? = some final) : (a.stmt? final).isSome = true
  nearest {condition : ExprId} {body otherwise : StmtId}
    (same : form = .ifElse condition body (some otherwise)) :
    (a.stmt? body).isSome = true ∧ ¬ a.OpenEnded body

def Settled (a : Arenas) : Prop := ∀ id stmt, a.stmt? id = some stmt → a.Settles stmt.form

/-- The statements of the first arenas are those of the second, which may have more. -/
def KeepsStmts (a b : Arenas) : Prop := ∀ id stmt, a.stmt? id = some stmt → b.stmt? id = some stmt

variable {a b : Arenas} {id : StmtId} {stmt : Stmt} {form : Stmt.Form}

theorem openEnded_iff (found : a.stmt? id = some stmt) :
    a.OpenEnded id ↔ a.OpenForm stmt.form := by
  constructor
  · rintro (⟨there, form⟩ | ⟨there, ends, rest⟩) <;>
      obtain rfl := Option.some.inj (found.symm.trans there)
    · exact .inl ⟨_, _, form⟩
    · exact .inr ⟨_, ends, rest⟩
  · rintro (⟨condition, body, form⟩ | ⟨final, ends, rest⟩)
    · exact .bare found form
    · exact .inside found ends rest

theorem settles_of_leaf (leaf : form.IsLeaf) : a.Settles form ∧ ¬ a.OpenForm form := by
  refine ⟨⟨fun ends => ?_, fun same => absurd same (leaf.2 _ _ _)⟩, ?_⟩
  · cases leaf.1.symm.trans ends
  · rintro (⟨_, _, same⟩ | ⟨_, ends, -⟩)
    · exact leaf.2 _ _ _ same
    · cases leaf.1.symm.trans ends

theorem KeepsStmts.isSome (keeps : a.KeepsStmts b) (there : (a.stmt? id).isSome = true) :
    (b.stmt? id).isSome = true := by
  obtain ⟨stmt, found⟩ := Option.isSome_iff_exists.mp there
  rw [keeps id stmt found]
  rfl

/-- More statements do not make one open-ended that has been there. -/
theorem KeepsStmts.openEnded (keeps : a.KeepsStmts b) (settled : a.Settled)
    (there : (a.stmt? id).isSome = true) (isOpen : b.OpenEnded id) : a.OpenEnded id := by
  induction isOpen with
  | bare found form =>
      obtain ⟨stmt, before⟩ := Option.isSome_iff_exists.mp there
      obtain rfl := Option.some.inj ((keeps _ _ before).symm.trans found)
      exact .bare before form
  | inside found ends _ ih =>
      obtain ⟨stmt, before⟩ := Option.isSome_iff_exists.mp there
      obtain rfl := Option.some.inj ((keeps _ _ before).symm.trans found)
      exact .inside before ends (ih ((settled _ _ before).ends ends))

theorem Settles.keep (keeps : a.KeepsStmts b) (settled : a.Settled) (settles : a.Settles form) :
    b.Settles form where
  ends final := keeps.isSome (settles.ends final)
  nearest same :=
    have ⟨there, closed⟩ := settles.nearest same
    ⟨keeps.isSome there, fun isOpen => closed (keeps.openEnded settled there isOpen)⟩

theorem addStmt_keepsStmts (a : Arenas) (stmt : Stmt) : a.KeepsStmts (a.addStmt stmt).2 :=
  fun _ _ found => (a.addStmt_extends stmt).stmt found

theorem stmt?_addStmt_self (a : Arenas) (stmt : Stmt) :
    (a.addStmt stmt).2.stmt? (a.addStmt stmt).1 = some stmt := by
  simp [addStmt, stmt?]

/-- The statement that is added is the only one that has not been there. -/
theorem Settled.addStmt (settled : a.Settled) (settles : a.Settles stmt.form) :
    (a.addStmt stmt).2.Settled := by
  intro id other found
  have keeps := a.addStmt_keepsStmts stmt
  have either : (a.stmts.push stmt)[id.index]? = some other := found
  rw [Array.getElem?_push] at either
  split at either
  · obtain rfl := Option.some.inj either
    exact settles.keep keeps settled
  · exact (settled id other either).keep keeps settled

end Arenas

namespace Grammar

open Token (Kind Keyword Punctuator)

/-! ## What every reading keeps -/

/-- The statements stay, and so does it that they are settled. -/
structure KeepsSettled (s t : State) : Prop where
  keeps : s.arenas.KeepsStmts t.arenas
  settled : s.arenas.Settled → t.arenas.Settled

namespace KeepsSettled

theorem trans {s middle t : State} (first : KeepsSettled s middle) (rest : KeepsSettled middle t) :
    KeepsSettled s t where
  keeps id stmt found := rest.keeps id stmt (first.keeps id stmt found)
  settled settled := rest.settled (first.settled settled)

theorem of_stmts {s t : State} (same : t.arenas.stmts = s.arenas.stmts) : KeepsSettled s t := by
  have equal (id : StmtId) : t.arenas.stmt? id = s.arenas.stmt? id := by
    rw [Arenas.stmt?, same, Arenas.stmt?]
  have keeps : s.arenas.KeepsStmts t.arenas := fun id stmt found => (equal id).trans found
  exact ⟨keeps, fun settled id stmt found =>
    (settled id stmt ((equal id).symm.trans found)).keep keeps settled⟩

theorem addLeaf (s : State) {form : Stmt.Form} (span : Span) (leaf : form.IsLeaf) :
    KeepsSettled s { s with arenas := (s.arenas.addStmt { form, span }).2 } where
  keeps := s.arenas.addStmt_keepsStmts _
  settled settled := settled.addStmt (Arenas.settles_of_leaf leaf).1

end KeepsSettled

/-- Every reading that makes no statement but a block or a declaration adds leaves only. -/
instance : PermitsDeclarations KeepsSettled where
  refl s := .of_stmts rfl
  trans := .trans
  plain step := by
    cases step with
    | addBlock items span => exact .addLeaf _ span ⟨rfl, nofun⟩
    | _ => exact .of_stmts rfl
  enclosed inner := ⟨inner.keeps, inner.settled⟩
  body decls bare inner := inner.trans (.of_stmts rfl)
  bindName s name kind := .of_stmts rfl
  addDeclared s decl span := .addLeaf _ span ⟨rfl, nofun⟩
  addFunction _ _ inner := inner.trans (.of_stmts rfl)

instance : PermitsComments KeepsSettled where
  modifyComments _ _ _ := .of_stmts rfl

/-! ## Forms that have been read -/

variable {α : Type} {tokens : Tokens} {rules : Rules}

/-- The statement is there, and no `else` follows if it is open-ended. -/
def StmtEnds (tokens : Tokens) (s : State) (id : StmtId) : Prop :=
  (s.arenas.stmt? id).isSome = true ∧
    (s.arenas.OpenEnded id → tokens.kind s.position ≠ .keyword .elseKw)

/-- The form is settled, and no `else` follows if a statement of it is open-ended. -/
def FormEnds (tokens : Tokens) (s : State) (form : Stmt.Form) : Prop :=
  s.arenas.Settles form ∧ (s.arenas.OpenForm form → tokens.kind s.position ≠ .keyword .elseKw)

/-- From settled statements the reading ends in a state of which `after` holds. -/
def Concludes (tokens : Tokens) (reading : Parse α) (after : State → α → Prop) : Prop :=
  ∀ s value s', s.arenas.Settled → reading tokens s = .ok value s' → after s' value

abbrev ConcludesForm (tokens : Tokens) (reading : Parse Stmt.Form) : Prop :=
  Concludes tokens reading (FormEnds tokens)

abbrev ConcludesStmt (tokens : Tokens) (reading : Parse StmtId) : Prop :=
  Concludes tokens reading (StmtEnds tokens)

namespace Concludes

/-- What is read in front makes no difference. -/
theorem past {β : Type} {reading : Parse α} {next : α → Parse β} {after : State → β → Prop}
    (follows : Follows KeepsSettled reading) (rest : ∀ value, Concludes tokens (next value) after) :
    Concludes tokens (reading >>= next) after := by
  intro s value s' settled run
  obtain ⟨first, middle, ran, done⟩ := bind_ok run
  exact rest first middle value s' ((follows.ok ran).settled settled) done

theorem leaf {form : Stmt.Form} (leaf : form.IsLeaf) : ConcludesForm tokens (pure form) := by
  intro s value s' _ run
  obtain ⟨rfl, rfl⟩ := pure_ok run
  obtain ⟨settles, closed⟩ := Arenas.settles_of_leaf leaf
  exact ⟨settles, fun isOpen => absurd isOpen closed⟩

/-- A form that ends with a statement ends as this does. -/
theorem final {reading : Parse StmtId} {form : StmtId → Stmt.Form}
    (concludes : ConcludesStmt tokens reading) (ends : ∀ id, (form id).final? = some id)
    (noIf : ∀ id condition body otherwise, form id ≠ .ifElse condition body otherwise) :
    ConcludesForm tokens (reading >>= fun id => pure (form id)) := by
  intro s value s' settled run
  obtain ⟨id, middle, ran, done⟩ := bind_ok run
  obtain ⟨rfl, rfl⟩ := pure_ok done
  obtain ⟨there, behind⟩ := concludes s id _ settled ran
  refine ⟨⟨fun same => ?_, fun same => absurd same (noIf id _ _ _)⟩, ?_⟩
  · obtain rfl := Option.some.inj ((ends id).symm.trans same)
    exact there
  · rintro (⟨_, _, same⟩ | ⟨_, same, isOpen⟩)
    · exact absurd same (noIf id _ _ _)
    · obtain rfl := Option.some.inj ((ends id).symm.trans same)
      exact behind isOpen

theorem inScope {body : Parse Stmt.Form} (concludes : ConcludesForm tokens body) :
    ConcludesForm tokens (Parse.inScope body) := by
  intro s form s' settled run
  obtain ⟨middle, ran, rfl⟩ := inScope_ok run
  exact concludes { s with scopes := {} :: s.scopes } form middle settled ran

end Concludes

variable (follow : rules.AllFollow KeepsSettled) (concludes : ConcludesStmt tokens rules.statement)

include follow concludes

/-- In front of an `else` that is taken stands no open-ended statement. -/
theorem ifStatement_concludes : ConcludesForm tokens (ifStatement rules) := by
  refine .past (parenthesized_follows follow.toPartsFollow) fun condition => ?_
  intro s form s' settled run
  obtain ⟨body, taken, reads, rest⟩ := bind_ok run
  obtain ⟨there, behind⟩ := concludes _ _ _ settled reads
  have settledTaken : taken.arenas.Settled := (follow.statement.ok reads).settled settled
  obtain ⟨otherwise, done, branches, answers⟩ := bind_ok rest
  obtain ⟨rfl, rfl⟩ := pure_ok answers
  obtain ⟨isElse, branch⟩ | ⟨noElse, branch⟩ := accept_then (by simp) branches
  · have closed : ¬ taken.arenas.OpenEnded body := fun isOpen => behind isOpen isElse
    obtain ⟨other, ran, rfl⟩ := map_ok branch
    obtain ⟨otherThere, otherBehind⟩ :=
      concludes { taken with position := taken.position + 1 } _ _ settledTaken ran
    have keeps := (follow.statement.ok ran).keeps
    refine ⟨⟨fun same => ?_, fun same => ?_⟩, ?_⟩
    · cases same
      exact otherThere
    · cases same
      exact ⟨keeps.isSome there, fun isOpen => closed (keeps.openEnded settledTaken there isOpen)⟩
    · rintro (⟨_, _, same⟩ | ⟨_, same, isOpen⟩)
      · cases same
      · cases same
        exact otherBehind isOpen
  · obtain ⟨rfl, rfl⟩ := pure_ok branch
    exact ⟨⟨nofun, nofun⟩, fun _ => noElse⟩

theorem whileStatement_concludes : ConcludesForm tokens (whileStatement rules) :=
  .past (parenthesized_follows follow.toPartsFollow) fun _ => .final concludes (fun _ => rfl) nofun

theorem switchStatement_concludes : ConcludesForm tokens (switchStatement rules) :=
  .past (parenthesized_follows follow.toPartsFollow) fun _ => .final concludes (fun _ => rfl) nofun

theorem forStatement_concludes : ConcludesForm tokens (forStatement rules) := by
  have parts := follow.toPartsFollow
  refine .past .expect fun _ => .inScope (.past (forStart_follows parts) fun first => ?_)
  refine .past (expressionUnless_follows parts) fun condition => .past .expect fun _ => ?_
  refine .past (expressionUnless_follows parts) fun post => .past .expect fun _ => ?_
  exact .final concludes (fun _ => rfl) nofun

theorem unlabeled_concludes : ConcludesForm tokens (unlabeled rules) := by
  have parts := follow.toPartsFollow
  refine .past .peek fun kind => ?_
  split
  · refine .past .expect fun _ => .past (.inScope (.many ?_)) fun items => ?_
    · exact blockItem?_follows follow (declarationStatements_follows parts)
    · exact .past .expect fun _ => .leaf ⟨rfl, nofun⟩
  · exact .past .advance fun _ => .leaf ⟨rfl, nofun⟩
  · exact .past .advance fun _ => ifStatement_concludes follow concludes
  · exact .past .advance fun _ => whileStatement_concludes follow concludes
  · refine .past .advance fun _ => .past follow.statement fun body => .past .expect fun _ => ?_
    refine .past (parenthesized_follows parts) fun condition => .past .expect fun _ => ?_
    exact .leaf ⟨rfl, nofun⟩
  · exact .past .advance fun _ => forStatement_concludes follow concludes
  · exact .past .advance fun _ => switchStatement_concludes follow concludes
  · refine .past .advance fun _ => .past (expressionUnless_follows parts) fun value => ?_
    exact .past .expect fun _ => .leaf ⟨rfl, nofun⟩
  · exact .past .advance fun _ => .past .expect fun _ => .leaf ⟨rfl, nofun⟩
  · exact .past .advance fun _ => .past .expect fun _ => .leaf ⟨rfl, nofun⟩
  · refine .past .advance fun _ => .past .identifier fun label => .past .expect fun _ => ?_
    exact .leaf ⟨rfl, nofun⟩
  · exact .past (expression_follows parts) fun value => .past .expect fun _ => .leaf ⟨rfl, nofun⟩

/-- A statement is added with a form that ends where it does. -/
theorem statement_concludes : ConcludesStmt tokens (statement rules) := by
  have parts := follow.toPartsFollow
  refine .past .here fun start => .past (.many (label?_follows parts)) fun labels => ?_
  intro s id s' settled run
  obtain ⟨form, read, reads, rest⟩ := bind_ok run
  obtain ⟨settles, behind⟩ := unlabeled_concludes follow concludes s form read settled reads
  have settledRead := ((unlabeled_follows follow).ok reads).settled settled
  obtain ⟨span, adds⟩ := look_then spanFrom_observes rest
  obtain ⟨rfl, rfl⟩ := add_ok adds
  have found := read.arenas.stmt?_addStmt_self { form, labels, span }
  refine ⟨by rw [found]; rfl, fun isOpen => behind ?_⟩
  obtain ⟨condition, body, same⟩ | ⟨final, ends, inner⟩ := (Arenas.openEnded_iff found).mp isOpen
  · exact .inl ⟨condition, body, same⟩
  · have keeps := read.arenas.addStmt_keepsStmts { form, labels, span }
    exact .inr ⟨final, ends, keeps.openEnded settledRead (settles.ends ends) inner⟩

omit concludes in
theorem statement_keepsSettled (concludes : ∀ tokens, ConcludesStmt tokens rules.statement) :
    Follows KeepsSettled (statement rules) := by
  have parts := follow.toPartsFollow
  refine .bind .here fun start => .bind (.many (label?_follows parts)) fun labels tokens s => ?_
  refine (unlabeled_follows follow).after (Permits.refl s) fun form read reads inner => ?_
  refine Follows.spanFrom.after inner fun span same looked _ => ?_
  obtain rfl := spanFrom_observes _ _ _ _ looked
  have adds := same.arenas.addStmt_keepsStmts { form, labels, span }
  refine ⟨fun id stmt found => adds id stmt (inner.keeps id stmt found), fun settled => ?_⟩
  have ends := unlabeled_concludes follow (concludes tokens) s form same settled reads
  exact (inner.settled settled).addStmt ends.1

omit follow concludes

theorem Rules.nested_concludes (depth : Nat) :
    (Rules.nested depth).AllFollow KeepsSettled ∧
      ∀ tokens, ConcludesStmt tokens (Rules.nested depth).statement := by
  induction depth with
  | zero =>
      exact ⟨{ Rules.nested_parts 0 with statement := .fail }, fun _ _ _ _ _ run => nomatch run⟩
  | succ depth ih =>
      obtain ⟨follow, concludes⟩ := ih
      have statement := statement_keepsSettled follow concludes
      exact ⟨{ Rules.nested_parts (depth + 1) with statement },
        fun tokens => statement_concludes follow (concludes tokens)⟩

end Grammar

namespace Program

open Grammar

variable {file source : String}

/-- Between an `if` and its `else` stands no open-ended statement. -/
theorem read_nearest_if {p : Program} (parsed : read file source = .ok p) {id : StmtId}
    {stmt : Stmt} {condition : ExprId} {body otherwise : StmtId} (found : p.stmt? id = some stmt)
    (form : stmt.form = .ifElse condition body (some otherwise)) : ¬ p.arenas.OpenEnded body := by
  obtain ⟨state, run, arenas, -⟩ := parse_of_read parsed
  have kept : KeepsSettled {} state :=
    (translationUnit_follows fun depth => (Rules.nested_concludes depth).1).ok run
  have settled : p.arenas.Settled := arenas ▸ kept.settled nofun
  exact ((settled id stmt found).nearest form).2

/-- The first `else` stands behind a block that holds an `if` without one, the other one
behind an empty statement. -/
def nestedIfSource : String :=
  "void f() \x7b if (1) \x7b if (2) ; \x7d else while (3) if (4) ; else ; \x7d"

theorem read_nearest_if_nestedIfSource :
    ∃ p outer inner, read "t.c" nestedIfSource = .ok p ∧ p.stmt? ⟨7⟩ = some outer ∧
      outer.form = .ifElse ⟨0⟩ ⟨2⟩ (some ⟨6⟩) ∧ ¬ p.arenas.OpenEnded ⟨2⟩ ∧
      p.stmt? ⟨5⟩ = some inner ∧ inner.form = .ifElse ⟨3⟩ ⟨3⟩ (some ⟨4⟩) ∧
      ¬ p.arenas.OpenEnded ⟨3⟩ := by
  have shape : (read "t.c" nestedIfSource).toOption.map (fun p =>
      ((p.stmt? ⟨7⟩).map Stmt.form, (p.stmt? ⟨5⟩).map Stmt.form)) =
      some (some (.ifElse ⟨0⟩ ⟨2⟩ (some ⟨6⟩)), some (.ifElse ⟨3⟩ ⟨3⟩ (some ⟨4⟩))) := by
    decide +kernel
  obtain ⟨p, parsed, seen⟩ := exists_read_of_map shape
  obtain ⟨first, second⟩ := Prod.mk.inj seen
  obtain ⟨outer, outerFound, outerForm⟩ := Option.map_eq_some_iff.mp first
  obtain ⟨inner, innerFound, innerForm⟩ := Option.map_eq_some_iff.mp second
  exact ⟨p, outer, inner, parsed, outerFound, outerForm,
    read_nearest_if parsed outerFound outerForm, innerFound, innerForm,
    read_nearest_if parsed innerFound innerForm⟩

end Program

end SyntaxGraph

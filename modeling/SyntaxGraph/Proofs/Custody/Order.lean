import SyntaxGraph.Proofs.Course.TranslationUnit
import SyntaxGraph.Proofs.Grammar.Runs

/-!
# The order of declarations

Whatever else a reading does, the declarations that it answers have been added while it
was reading, and in the order in which it answers them.  So those of a later reading come
later in the arena than those of an earlier one.
-/

set_option autoImplicit false

namespace SyntaxGraph.Grammar

variable {α β : Type} {rules : Rules} {known : List DeclId}

/-- The declarations have been added one after the other, from one size of the arena on and
before it has got to another. -/
structure Added (low high : Nat) (decls : List DeclId) : Prop where
  le : low ≤ high
  inside : ∀ id ∈ decls, low ≤ id.index ∧ id.index < high
  increasing : decls.Pairwise (·.index < ·.index)

theorem Added.none {low high : Nat} (le : low ≤ high) : Added low high [] :=
  ⟨le, by simp, .nil⟩

theorem Added.append {low middle high : Nat} {decls others : List DeclId}
    (first : Added low middle decls) (rest : Added middle high others) :
    Added low high (decls ++ others) where
  le := Nat.le_trans first.le rest.le
  inside id member := by
    have lower := first.le
    have upper := rest.le
    rcases List.mem_append.mp member with early | late
    · have bounds := first.inside id early
      omega
    · have bounds := rest.inside id late
      omega
  increasing := by
    refine List.pairwise_append.mpr ⟨first.increasing, rest.increasing, ?_⟩
    intro id early other late
    have before := first.inside id early
    have behind := rest.inside other late
    omega

/-- To the declarations that are known the reading adds some more. -/
def Issues (known : List DeclId) (reading : Parse α) (all : α → List DeclId) : Prop :=
  ∀ tokens s value s', reading tokens s = .ok value s' →
    ∃ added, all value = known ++ added ∧
      Added s.arenas.decls.size s'.arenas.decls.size added

namespace Issues

variable {all : α → List DeclId}

theorem pure {value : α} (same : all value = known) : Issues known (Pure.pure value) all := by
  intro tokens s result s' run
  obtain ⟨rfl, rfl⟩ := pure_ok run
  exact ⟨[], by simp [same], .none (Nat.le_refl _)⟩

theorem fail {cause : Cause} : Issues known (Parse.fail cause : Parse α) all := by
  intro tokens s value s' run
  cases run

theorem bind {reading : Parse α} {next : α → Parse β} {final : β → List DeclId}
    (first : Issues known reading all) (rest : ∀ value, Issues (all value) (next value) final) :
    Issues known (reading >>= next) final := by
  intro tokens s value s' run
  obtain ⟨found, middle, ran, done⟩ := bind_ok run
  obtain ⟨early, equal, before⟩ := first tokens s found middle ran
  obtain ⟨late, final, behind⟩ := rest found tokens middle value s' done
  exact ⟨early ++ late, by rw [final, equal, List.append_assoc], before.append behind⟩

theorem map {reading : Parse α} {change : α → β} {final : β → List DeclId}
    (issues : Issues known reading fun value => final (change value)) :
    Issues known (change <$> reading) final :=
  issues.bind fun _ => .pure rfl

/-- A reading whose own declarations are not answered. -/
theorem past {reading : Parse α} {next : α → Parse β} {final : β → List DeclId}
    (follows : Follows Course reading) (rest : ∀ value, Issues known (next value) final) :
    Issues known (reading >>= next) final := by
  refine bind (fun tokens s value s' run => ?_) rest
  exact ⟨[], by simp, .none (follows.ok run).decls_size_le⟩

theorem addDecl {decl : Decl} : Issues known (Parse.addDecl decl) fun id => known ++ [id] := by
  intro tokens s id s' run
  obtain ⟨rfl, rfl⟩ := add_ok run
  refine ⟨_, rfl, ?_⟩
  constructor <;> simp [Arenas.addDecl]

theorem many {item : Parse (Option α)} (each : Issues [] item fun found => found.elim [] all) :
    Issues known (Parse.many item) fun found => known ++ found.flatMap all := by
  intro tokens s found s' run
  refine ⟨_, rfl, ?_⟩
  have collects := many_ok run
  clear run
  induction collects with
  | stop last =>
      obtain ⟨added, -, before⟩ := each tokens _ none _ last
      exact .none before.le
  | next one _ ih =>
      obtain ⟨added, equal, before⟩ := each tokens _ (some _) _ one
      obtain rfl : all _ = added := equal
      exact before.append ih

end Issues

/-! ## Declarations -/

theorem initDeclarator_issues (follow : rules.PartsFollow Course) {start : Location}
    {specifiers : Specifiers} {declarator : Declarator} :
    Issues [] (initDeclarator rules start specifiers declarator) fun id => [id] := by
  unfold initDeclarator
  split
  · exact .fail
  · refine .past .bindName fun _ => .past (initializer?_follows follow) fun init => ?_
    exact .past .spanFrom fun span => .addDecl

theorem nextDeclarator?_issues (follow : rules.PartsFollow Course) {start : Location}
    {specifiers : Specifiers} :
    Issues [] (nextDeclarator? rules start specifiers) fun next => next.elim [] ([·]) := by
  refine .past .accept fun comma => ?_
  split
  · refine .past (declarator_follows follow) fun next => .map ?_
    exact initDeclarator_issues follow
  · exact .pure rfl

theorem declaration_issues (follow : rules.PartsFollow Course)
    {define : Location → Specifiers → Declarator → Parse DeclId}
    (defines : ∀ start specifiers declarator,
      Issues [] (define start specifiers declarator) fun id => [id]) :
    Issues [] (declaration rules define) id := by
  refine .past .here fun start => .past (specifiers_follows follow) fun specifiers => ?_
  refine .past .accept fun alone => ?_
  split
  · exact .past .spanFrom fun span => .bind .addDecl fun tagOnly => .pure rfl
  · refine .past (declarator_follows follow) fun first => .past .at? fun body => ?_
    refine .past .typeNode fun type => ?_
    split
    · exact .bind (defines start specifiers first) fun decl => .pure rfl
    · refine .bind (initDeclarator_issues follow) fun decl => ?_
      refine .bind (.many (nextDeclarator?_issues follow)) fun others => .past .expect fun _ => ?_
      exact .pure (by simp)

theorem functionDefinition_issues (follow : rules.AllFollow Course) {start : Location}
    {specifiers : Specifiers} {declarator : Declarator} :
    Issues [] (functionDefinition rules start specifiers declarator) fun id => [id] := by
  unfold functionDefinition
  split
  · exact .fail
  · have declares := declarationStatements_follows follow.toPartsFollow
    refine .past .bindName fun _ => .past (functionBody_follows follow declares) fun body => ?_
    exact .past .spanFrom fun span => .addDecl

theorem external?_issues (follow : rules.AllFollow Course) :
    Issues [] (external? rules) fun unit => unit.elim [] External.decls := by
  refine .past .at? fun ended => ?_
  split
  · exact .pure rfl
  · refine .past .here fun start => ?_
    refine .bind (declaration_issues follow.toPartsFollow fun _ _ _ => ?_) fun decls => ?_
    · exact functionDefinition_issues follow
    · exact .past .finishBefore fun finish => .pure rfl

/-- The declarations of a file are answered in the order in which they have been added. -/
theorem translationUnit_issues {comments : List Comment} :
    Issues [] (translationUnit comments) id := by
  refine .past .read fun tokens => ?_
  have follow : (Rules.nested tokens.size).AllFollow Course := Rules.nested_follow _
  refine .bind (.many (external?_issues follow)) fun units => ?_
  exact .past attachComments_follows fun left => .past annotate_follows fun _ => .pure rfl

end SyntaxGraph.Grammar

import SyntaxGraph.Grammar.Statement
import SyntaxGraph.Proofs.Spans.Declarator

/-!
# Where declarations and statements lie

The declarations of one list of specifiers all begin with the first of these, so they lie on
top of each other.  A statement covers its labels and what is behind them; the statement
that a declaration in a block becomes has the span of the declaration.
-/

set_option autoImplicit false

namespace SyntaxGraph.Grammar

open Token (Kind Keyword Punctuator)

variable {rules : Rules} {sheet : Sheet} {given : Prop} {i first : Nat}

theorem Sheet.inside_flatten {α : Type} [Owning α] {groups : List (List α)} {j : Nat}
    (inside : sheet.Inside (parts groups) i j) : sheet.Inside (parts groups.flatten) i j := by
  rwa [parts_flatten]

/-! ## Initializers -/

theorem designator?_lays (lay : rules.AllLay sheet) :
    Lays sheet given i (designator? rules)
      fun j next => next.elim (j = i) fun designator => sheet.Designates designator i j := by
  refine .here (.accept (by simp) ?_ (.accept (by simp) ?_ (.pure fun _ => rfl)))
  · refine .identifier fun name => .spanFrom i (fun _ => ⟨rfl, by omega⟩) fun span => ?_
    exact .pure fun known => ⟨rfl, known.2, Sheet.inside_nil⟩
  · refine .bind (lay.conditional given _) fun index j le => .expect (by simp) ?_
    refine .spanFrom i (fun _ => ⟨rfl, by omega⟩) fun span => .pure fun known => ⟨rfl, known.2, ?_⟩
    exact known.1.2.inside.mono (by omega) (Nat.le_succ j)

theorem designation_lays (lay : rules.AllLay sheet) :
    Lays sheet given i (designation rules) fun j found => sheet.AllDesignate found i j := by
  refine .bind (.many _ fun _ _ => designator?_lays lay) fun found j le => ?_
  dsimp only
  split
  · refine .expect (by simp) (.pure fun known => ?_)
    exact Sheet.AllDesignate.mono known.2.found (Nat.le_succ j)
  · exact .pure fun known => known.2.found

theorem initializerItem_lays (lay : rules.AllLay sheet) :
    Lays sheet given i (initializerItem rules) fun j id => sheet.Lies (.init id) i j := by
  refine .here (.bind (designation_lays lay) fun designators j le => .accept (by simp) ?_ ?_)
  · refine .bind (lay.initializers _ _) fun items k further => ?_
    refine spannedInit_lays (fun _ => ⟨rfl, by omega⟩) (fun known => ?_) fun known => ?_
    · exact known.1.2.mono (by omega)
    · exact known.2.mono (by omega) (Nat.le_refl k)
  · refine .bind (assignment_lays lay) fun value k further => ?_
    refine spannedInit_lays (fun known => ⟨rfl, le.trans_lt known.2.some⟩) (fun known => ?_) ?_
    · exact known.1.2.mono further
    · exact fun known => known.2.inside.mono le (Nat.le_refl k)

theorem initializers_lays (lay : rules.AllLay sheet) :
    Lays sheet given i (initializers rules) fun j items => sheet.Inside (parts items) i j := by
  refine .bind (.listedInside fun k _ => ?_) fun items j le => .expect (by simp) (.pure ?_)
  · exact (initializerItem_lays lay).answer fun _ _ _ _ => Sheet.Lies.inside
  · exact fun known => known.2.mono (Nat.le_refl i) (Nat.le_succ j)

theorem initializer_lays (lay : rules.AllLay sheet) :
    Lays sheet given i (initializer rules) fun j id => sheet.Lies (.init id) i j := by
  have plain {low high : Nat} : sheet.AllDesignate [] low high := by simp [Sheet.AllDesignate]
  refine .here (.accept (by simp) ?_ ?_)
  · refine .bind (initializers_lays lay) fun items j le => ?_
    refine spannedInit_lays (fun _ => ⟨rfl, le⟩) (fun _ => plain) fun known => ?_
    exact known.2.mono (Nat.le_succ i) (Nat.le_refl j)
  · refine .bind (assignment_lays lay) fun value j le => ?_
    exact spannedInit_lays (fun known => ⟨rfl, known.2.some⟩) (fun _ => plain)
      fun known => known.2.inside

/-! ## Declarations -/

theorem initializer?_lays (lay : rules.AllLay sheet) {storage : Storage} {name : String} :
    Lays sheet given i (initializer? rules storage name)
      fun j init => sheet.Inside (parts init) i j := by
  refine .accept (by simp) ?_ (.pure fun _ => Sheet.inside_nil)
  rw [if_pos rfl]
  dsimp only
  split
  · exact .refuse
  · exact .map (.inward (initializer_lays lay) (Nat.le_succ i))

theorem initDeclarator_lays (lay : rules.AllLay sheet) {start : Location}
    {specifiers : Specifiers} {declarator : Declarator}
    (starts : given → start = sheet.tokens.start first ∧ first < i) :
    Lays sheet given i (initDeclarator rules start specifiers declarator)
      fun j id => sheet.Lies (.decl id) first j := by
  unfold initDeclarator
  split
  · exact .fail
  · refine .bindName (.bind (initializer?_lays lay) fun init j le => ?_)
    refine spannedDecl_lays (fun _ => rfl) (fun _ => rfl) (fun known => ?_) fun known _ => ?_
    · exact ⟨(starts known.1).1, (starts known.1).2.trans_le le⟩
    · have inside := known.2.mono (starts known.1).2.le (Nat.le_refl j)
      exact Sheet.inside_append.mpr ⟨inside, Sheet.inside_nil⟩

theorem nextDeclarator?_lays (lay : rules.AllLay sheet) {start : Location}
    {specifiers : Specifiers} (starts : given → start = sheet.tokens.start first ∧ first < i) :
    Lays sheet given i (nextDeclarator? rules start specifiers)
      fun j next => next.elim (j = i) fun id => sheet.Lies (.decl id) first j := by
  refine .accept (by simp) ?_ (.pure fun _ => rfl)
  refine .past (declarator_lays lay) fun next j le => .map (initDeclarator_lays lay ?_)
  exact fun known => ⟨(starts known).1, (starts known).2.trans (by omega)⟩

/-- There is a declaration at least, and each of them begins with the specifiers. -/
theorem declaration_lays (lay : rules.AllLay sheet)
    {define : Location → Specifiers → Declarator → Parse DeclId}
    (defines : ∀ {given : Prop} {first i : Nat} {start specifiers declarator},
      (given → start = sheet.tokens.start first ∧ first < i) →
      Lays sheet given i (define start specifiers declarator)
        fun j id => sheet.Lies (.decl id) first j) :
    Lays sheet given i (declaration rules define)
      fun j decls => i < j ∧ decls ≠ [] ∧ sheet.Inside (parts decls) i j := by
  refine .here (.bind (specifiers_lays lay) fun specifiers j le => ?_)
  have alone {k : Nat} {decl : DeclId} (lies : sheet.Lies (.decl decl) i k) :
      i < k ∧ [decl] ≠ [] ∧ sheet.Inside (parts [decl]) i k :=
    ⟨lies.some, List.cons_ne_nil _ _, lies.inside⟩
  refine .accept (by simp) ?_ ?_
  · refine .spanFrom i (fun known => ⟨rfl, known.2.trans (Nat.lt_succ_self j)⟩) fun span => ?_
    refine .bind (.addDecl rfl And.right fun _ => Sheet.inside_nil) fun tagOnly k _ => ?_
    refine .pure fun known => ?_
    obtain ⟨-, rfl, lies⟩ := known
    exact alone lies
  · refine .past (declarator_lays lay) fun found k further => .at? fun body _ => ?_
    have starts (l : Nat) (behind : k ≤ l) (known : given ∧ i < j) :
        sheet.tokens.start i = sheet.tokens.start i ∧ i < l :=
      ⟨rfl, known.2.trans_le (further.trans behind)⟩
    refine .look typeNode_observes.still fun type => ?_
    split
    · refine .bind (defines (starts k (Nat.le_refl k))) fun decl l _ => .pure fun known => ?_
      exact alone known.2
    · refine .bind (initDeclarator_lays lay (starts k (Nat.le_refl k))) fun decl l behind => ?_
      refine .bind (.many (fun _ high id => sheet.Lies (.decl id) i high) fun m later =>
        nextDeclarator?_lays lay fun known => starts m (behind.trans later) known.1)
        fun others m later => .expect (by simp) (.pure fun known => ?_)
      obtain ⟨⟨⟨_, before⟩, lies⟩, rest⟩ := known
      refine ⟨by omega, List.cons_ne_nil _ _, Sheet.inside_of_forall fun id member => ?_⟩
      rcases List.mem_cons.mp member with rfl | listed
      · exact ⟨i, l, Nat.le_refl i, by omega, lies.inside⟩
      · obtain ⟨_, high, _, inner, other⟩ := rest.found id listed
        exact ⟨i, high, Nat.le_refl i, by omega, other.inside⟩

/-! ## Labels and blocks -/

theorem labelForm?_lays (lay : rules.AllLay sheet) :
    Lays sheet given i (labelForm? rules)
      fun j next => next.elim (j = i) fun form => i < j ∧ sheet.Inside (parts form) i j := by
  refine .peek fun kind there => ?_
  split
  · refine .look peekNext_observes.still fun behind => ?_
    split
    · refine .advance there (by simp) (.past .advance_moves fun _ j le => .pure fun _ => ?_)
      exact ⟨le, Sheet.inside_nil⟩
    · exact .pure fun _ => rfl
  · refine .advance there (by simp) (.bind (conditional_lays lay) fun value j le => ?_)
    refine .expect (by simp) (.pure fun known => ⟨by omega, ?_⟩)
    exact known.2.inside.mono (Nat.le_succ i) (Nat.le_succ j)
  · exact .advance there (by simp) (.expect (by simp) (.pure fun _ =>
      ⟨by omega, Sheet.inside_nil⟩))
  · exact .pure fun _ => rfl

theorem label?_lays (lay : rules.AllLay sheet) :
    Lays sheet given i (label? rules)
      fun j next => next.elim (j = i) fun id => sheet.Inside (parts id) i j := by
  refine .here (.bind (labelForm?_lays lay) fun next j le => ?_)
  cases next with
  | none => exact .pure fun known => known.2
  | some form =>
      refine .spanFrom i (fun known => ⟨rfl, known.2.1⟩) fun span => .map ?_
      exact .inward (.ended (.addLabel And.right fun known => known.1.2.2)) (Nat.le_refl i)

/-- The statement that a declaration becomes covers what the declaration covers. -/
theorem declared_lays {decl : DeclId} {low high : Nat}
    (inside : given → sheet.Inside (parts decl) low high) :
    Lays sheet given i (do Parse.addStmt { form := .decl decl, span := ← Parse.declSpan decl })
      fun _ id => sheet.Inside (parts id) low high := by
  refine .declSpan fun span => .answer (.add .stmt (fun id => sheet.Inside (parts id) low high)
    (·.addStmt_extends _) (fun _ _ => Arenas.addStmt_owns) ?_) fun _ _ _ _ => And.right
  rintro a extension ⟨known, found⟩
  obtain ⟨first, last, lower, upper, lies⟩ := inside known _ List.mem_cons_self
  have covers := lies.covers found
  have there : sheet.arenas.stmt? (a.addStmt { form := .decl decl, span }).1 = some _ :=
    extension.stmt Array.getElem?_push_size
  have same : sheet.Lies (.stmt (a.addStmt { form := .decl decl, span }).1) first last :=
    ⟨span, Option.map_eq_some_iff.mpr ⟨_, there, rfl⟩, covers⟩
  refine ⟨⟨_, there, first, last, covers, ?_⟩, same.inside.mono lower upper⟩
  exact Sheet.inside_append.mpr ⟨lies.inside, Sheet.inside_nil⟩

theorem declarationStatements_lays (lay : rules.AllLay sheet) :
    Lays sheet given i (declarationStatements rules)
      fun j stmts => i < j ∧ sheet.Inside (parts stmts) i j := by
  have each {decls : List DeclId} {given : Prop} {k high : Nat}
      (inside : given → sheet.Inside (parts decls) i high) :
      Lays sheet given k
        (decls.mapM fun decl => do
          Parse.addStmt { form := .decl decl, span := ← Parse.declSpan decl })
        fun _ stmts => sheet.Inside (parts stmts) i high := by
    induction decls generalizing given k with
    | nil => exact .pure fun _ => Sheet.inside_nil
    | cons decl decls ih =>
        rw [List.mapM_cons]
        refine .bind (declared_lays fun known => (Sheet.inside_cons.mp (inside known)).1)
          fun stmt l _ => .bind (ih fun known => (Sheet.inside_cons.mp (inside known.1)).2)
          fun stmts m _ => .pure ?_
        exact fun known => Sheet.inside_cons.mpr ⟨known.1.2, known.2⟩
  refine .bind (declaration_lays lay fun _ => .fail) fun decls j le => ?_
  refine (each fun known => known.2.2.2).answer fun k stmts known further inside => ?_
  exact ⟨known.2.1.trans_le further, inside.mono (Nat.le_refl i) further⟩

theorem blockItem?_lays (lay : rules.AllLay sheet) :
    Lays sheet given i (blockItem? rules)
      fun j next => next.elim (j = i) fun stmts => sheet.Inside (parts stmts) i j := by
  refine .peek fun kind there => ?_
  split
  · exact .pure fun _ => rfl
  · exact .pure fun _ => rfl
  · refine .look scopes_observes.still fun scopes => .look peekNext_observes.still fun behind => ?_
    split
    · exact .map ((declarationStatements_lays lay).answer fun _ _ _ _ => And.right)
    · refine .bind (lay.statement given i) fun only j le => .pure fun known => ?_
      exact known.2.inside

theorem block_lays (lay : rules.AllLay sheet) :
    Lays sheet given i (block rules)
      fun j form => i < j ∧ sheet.Inside (parts form) i j := by
  refine .expect (by simp) (.bind (.inScope (.manyInside fun _ _ => blockItem?_lays lay)) ?_)
  refine fun items j le => .expect (by simp) (.pure fun known => ⟨by omega, ?_⟩)
  exact (Sheet.inside_flatten known.2).mono (Nat.le_succ i) (Nat.le_succ j)

/-! ## Statements by their keyword -/

theorem parenthesized_lays (lay : rules.AllLay sheet) {before after : String} :
    Lays sheet given i (parenthesized rules before after)
      fun j id => sheet.Inside (parts id) i j := by
  refine .expect (by simp) (.bind (expression_lays lay) fun value j le => ?_)
  refine .expect (by simp) (.pure fun known => ?_)
  exact known.2.inside.mono (Nat.le_succ i) (Nat.le_succ j)

theorem expressionUnless_lays (lay : rules.AllLay sheet) {stop : Punctuator} :
    Lays sheet given i (expressionUnless rules stop)
      fun j value => sheet.Inside (parts value) i j := by
  refine .at? fun stops _ => ?_
  split
  · exact .pure fun _ => Sheet.inside_nil
  · exact .map (.inward (expression_lays lay) (Nat.le_refl i))

theorem elseBranch?_lays (lay : rules.AllLay sheet) :
    Lays sheet given i (elseBranch? rules) fun j other => sheet.Inside (parts other) i j :=
  .accept (by simp) (.map (.inward (lay.statement given (i + 1)) (Nat.le_succ i)))
    (.pure fun _ => Sheet.inside_nil)

theorem ifStatement_lays (lay : rules.AllLay sheet) :
    Lays sheet given i (ifStatement rules) fun j form => sheet.Inside (parts form) i j := by
  refine .bind (parenthesized_lays lay) fun condition j le => ?_
  refine .bind (lay.statement _ j) fun body k further => ?_
  refine .bind (elseBranch?_lays lay) fun otherwise l behind => .pure ?_
  rintro ⟨⟨⟨_, condition⟩, body⟩, otherwise⟩
  refine Sheet.inside_cons.mpr ⟨condition.mono (Nat.le_refl i) (by omega), ?_⟩
  refine Sheet.inside_cons.mpr ⟨body.inside.mono le behind, ?_⟩
  exact otherwise.mono (by omega) (Nat.le_refl l)

/-- What a loop or a `switch` is about, and its body behind that. -/
theorem conditionBody_lays (lay : rules.AllLay sheet) {before after : String}
    {form : ExprId → StmtId → Stmt.Form}
    (holds : ∀ condition body, parts (form condition body) = [.expr condition, .stmt body]) :
    Lays sheet given i
      (do
        let condition ← parenthesized rules before after
        let body ← rules.statement
        return form condition body) fun j form => sheet.Inside (parts form) i j := by
  refine .bind (parenthesized_lays lay) fun condition j le => ?_
  refine .bind (lay.statement _ j) fun body k further => .pure fun known => ?_
  rw [holds]
  exact Sheet.inside_cons.mpr ⟨known.1.2.mono (Nat.le_refl i) further,
    known.2.inside.mono le (Nat.le_refl k)⟩

theorem doStatement_lays (lay : rules.AllLay sheet) :
    Lays sheet given i (doStatement rules) fun j form => sheet.Inside (parts form) i j := by
  refine .bind (lay.statement given i) fun body j le => .expect (by simp) ?_
  refine .bind (parenthesized_lays lay) fun condition k further => .expect (by simp) ?_
  refine .pure fun known => ?_
  exact Sheet.inside_cons.mpr ⟨known.1.2.inside.mono (Nat.le_refl i) (by omega),
    known.2.mono (by omega) (Nat.le_succ k)⟩

theorem forStart_lays (lay : rules.AllLay sheet) :
    Lays sheet given i (forStart rules) fun j clause => sheet.Inside (parts clause) i j := by
  refine .look scopes_observes.still fun scopes => .peek fun kind there => ?_
  split
  · refine .here (.bind (specifiers_lays lay) fun specifiers j le => ?_)
    refine .past (declarator_lays lay) fun declarator k further => ?_
    refine .bind (initDeclarator_lays lay fun known => ⟨rfl, known.2.trans_le further⟩)
      fun decl l behind => .at? fun another _ => ?_
    dsimp only
    split
    · exact .refuse
    · refine .expect (by simp) (.pure fun known => ?_)
      exact known.2.inside.mono (Nat.le_refl i) (Nat.le_succ l)
  · refine .accept (by simp) (.pure fun _ => Sheet.inside_nil) ?_
    refine .bind (expression_lays lay) fun value j le => .expect (by simp) (.pure fun known => ?_)
    exact Sheet.inside_append.mpr
      ⟨known.2.inside.mono (Nat.le_refl i) (Nat.le_succ j), Sheet.inside_nil⟩

theorem forClauses_lays (lay : rules.AllLay sheet) :
    Lays sheet given i (forClauses rules) fun j form => sheet.Inside (parts form) i j := by
  refine .bind (forStart_lays lay) fun (pre, decl) j le => ?_
  refine .bind (expressionUnless_lays lay) fun condition k further => .expect (by simp) ?_
  refine .bind (expressionUnless_lays lay) fun post l behind => .expect (by simp) ?_
  refine .bind (lay.statement _ _) fun body m last => .pure ?_
  rintro ⟨⟨⟨⟨_, start⟩, condition⟩, post⟩, body⟩
  obtain ⟨pre, decl⟩ := Sheet.inside_append.mp start
  refine Sheet.inside_cons.mpr ⟨body.inside.mono (by omega) (Nat.le_refl m), ?_⟩
  refine Sheet.inside_append.mpr
    ⟨Sheet.inside_append.mpr ⟨Sheet.inside_append.mpr ⟨?_, ?_⟩, ?_⟩, ?_⟩
  · exact pre.mono (Nat.le_refl i) (by omega)
  · exact condition.mono le (by omega)
  · exact post.mono (by omega) (by omega)
  · exact decl.mono (Nat.le_refl i) (by omega)

theorem forStatement_lays (lay : rules.AllLay sheet) :
    Lays sheet given i (forStatement rules) fun j form => sheet.Inside (parts form) i j := by
  refine .expect (by simp) (.inScope ((forClauses_lays lay).answer fun j form _ _ inside => ?_))
  exact inside.mono (Nat.le_succ i) (Nat.le_refl j)

theorem returnStatement_lays (lay : rules.AllLay sheet) :
    Lays sheet given i (returnStatement rules) fun j form => sheet.Inside (parts form) i j :=
  .bind (expressionUnless_lays lay) fun _ j _ => .expect (by simp) (.pure fun known =>
    known.2.mono (Nat.le_refl i) (Nat.le_succ j))

theorem expressionStatement_lays (lay : rules.AllLay sheet) :
    Lays sheet given i (expressionStatement rules)
      fun j form => i < j ∧ sheet.Inside (parts form) i j := by
  refine .bind (expression_lays lay) fun value j le => .expect (by simp) (.pure fun known => ?_)
  exact ⟨Nat.lt_succ_of_le le, known.2.inside.mono (Nat.le_refl i) (Nat.le_succ j)⟩

/-- A form behind its keyword. -/
theorem Lays.behindKeyword {word : Keyword} {reading : Parse Stmt.Form}
    (there : sheet.tokens.kind i = .keyword word)
    (lays : Lays sheet given (i + 1) reading fun j form => sheet.Inside (parts form) (i + 1) j) :
    Lays sheet given i (Parse.advance >>= fun _ => reading)
      fun j form => i < j ∧ sheet.Inside (parts form) i j := by
  refine .advance there (by simp) (lays.answer fun j form _ further inside => ?_)
  exact ⟨further, inside.mono (Nat.le_succ i) (Nat.le_refl j)⟩

theorem unlabeled_lays (lay : rules.AllLay sheet) :
    Lays sheet given i (unlabeled rules)
      fun j form => i < j ∧ sheet.Inside (parts form) i j := by
  refine .peek fun kind there => ?_
  split
  · exact block_lays lay
  · exact .advance there (by simp) (.pure fun _ => ⟨Nat.lt_succ_self i, Sheet.inside_nil⟩)
  · exact .behindKeyword there (ifStatement_lays lay)
  · exact .behindKeyword there (conditionBody_lays lay fun _ _ => rfl)
  · exact .behindKeyword there (doStatement_lays lay)
  · exact .behindKeyword there (forStatement_lays lay)
  · exact .behindKeyword there (conditionBody_lays lay fun _ _ => rfl)
  · exact .behindKeyword there (returnStatement_lays lay)
  · exact .behindKeyword there (.expect (by simp) (.pure fun _ => Sheet.inside_nil))
  · exact .behindKeyword there (.expect (by simp) (.pure fun _ => Sheet.inside_nil))
  · refine .behindKeyword there (.identifier fun label => .expect (by simp) ?_)
    exact .pure fun _ => Sheet.inside_nil
  · exact expressionStatement_lays lay

/-- A statement that begins at an earlier token. -/
theorem spannedStmt_lays {form : Stmt.Form} {labels : List LabelId} {start : Location}
    (starts : given → start = sheet.tokens.start first ∧ first < i)
    (holds : given → sheet.Inside (parts form) first i)
    (labeled : given → sheet.Inside (parts labels) first i) :
    Lays sheet given i (do Parse.addStmt { form, labels, span := ← Parse.spanFrom start })
      fun j id => sheet.Lies (.stmt id) first j :=
  .spanFrom first starts fun _ => .ended (.addStmt And.right fun known =>
    Sheet.inside_append.mpr ⟨holds known.1, labeled known.1⟩)

theorem statement_lays (lay : rules.AllLay sheet) :
    Lays sheet given i (statement rules) fun j id => sheet.Lies (.stmt id) i j := by
  refine .here (.bind (.manyInside fun _ _ => label?_lays lay) fun labels j le => ?_)
  refine .bind (unlabeled_lays lay) fun form k further => ?_
  refine spannedStmt_lays (fun known => ⟨rfl, le.trans_lt known.2.1⟩) (fun known => ?_) ?_
  · exact known.2.2.mono le (Nat.le_refl k)
  · exact fun known => known.1.2.mono (Nat.le_refl i) further

theorem compoundStatement_lays (lay : rules.AllLay sheet) :
    Lays sheet given i (compoundStatement rules) fun j id => sheet.Lies (.stmt id) i j :=
  .here (.bind (block_lays lay) fun _ _ _ => spannedStmt_lays (fun known => ⟨rfl, known.2.1⟩)
    (fun known => known.2.2) fun _ => Sheet.inside_nil)

end SyntaxGraph.Grammar

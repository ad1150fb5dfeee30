import SyntaxGraph.Grammar.Expression
import SyntaxGraph.Proofs.Spans.Judgement

/-!
# Where expressions lie

An expression covers exactly the tokens that are read for it.  A suffix begins where its
operand begins, and a binary operator covers what lies from the start of its left operand up
to the end of its right one.
-/

set_option autoImplicit false

namespace SyntaxGraph.Grammar

open Token (Kind Keyword Punctuator)

variable {rules : Rules} {sheet : Sheet} {given : Prop} {i first : Nat}

/-- The recursive rules lay out what they add; their expressions and statements cover what is
read for them. -/
structure Rules.AllLay (rules : Rules) (sheet : Sheet) : Prop where
  expression : ∀ given i,
    Lays sheet given i rules.expression fun j id => sheet.Lies (.expr id) i j
  assignment : ∀ given i,
    Lays sheet given i rules.assignment fun j id => sheet.Lies (.expr id) i j
  conditional : ∀ given i,
    Lays sheet given i rules.conditional fun j id => sheet.Lies (.expr id) i j
  cast : ∀ given i, Lays sheet given i rules.cast fun j id => sheet.Lies (.expr id) i j
  unary : ∀ given i, Lays sheet given i rules.unary fun j id => sheet.Lies (.expr id) i j
  typeName : ∀ given i, Lays sheet given i rules.typeName fun _ _ => True
  specifiers : ∀ given i, Lays sheet given i rules.specifiers fun j _ => i < j
  declarator : ∀ given i type abstractOk,
    Lays sheet given i (rules.declarator type abstractOk) fun _ _ => True
  initializers : ∀ given i,
    Lays sheet given i rules.initializers fun j items => sheet.Inside (parts items) i j
  statement : ∀ given i,
    Lays sheet given i rules.statement fun j id => sheet.Lies (.stmt id) i j

/-- A node for an expression that begins at an earlier token. -/
theorem spannedExpr_lays {form : Expr.Form} {start : Location}
    (starts : given → start = sheet.tokens.start first ∧ first < i)
    (holds : given → sheet.Holds form first i) :
    Lays sheet given i (do Parse.addExpr form (← Parse.spanFrom start))
      fun j id => sheet.Lies (.expr id) first j :=
  .spanFrom first starts fun _ => .ended (.addExpr And.right fun known => holds known.1)

theorem offeredExpr_lays {form : Expr.Form} {start : Location} {operand : ExprId}
    (starts : given → start = sheet.tokens.start first ∧ first < i)
    (holds : given → sheet.Holds form first i) :
    Lays sheet given i (do some <$> Parse.addExpr form (← Parse.spanFrom start))
      fun j next => sheet.Lies (.expr (next.getD operand)) first j :=
  .spanFrom first starts fun _ =>
    .map (.ended (.addExpr And.right fun known => holds known.1))

/-- An initializer that begins at an earlier token. -/
theorem spannedInit_lays {designators : List Designator} {form : Init.Form} {start : Location}
    (starts : given → start = sheet.tokens.start first ∧ first < i)
    (designate : given → sheet.AllDesignate designators first i)
    (inside : given → sheet.Inside form.parts first i) :
    Lays sheet given i (do Parse.addInit { designators, form, span := ← Parse.spanFrom start })
      fun j id => sheet.Lies (.init id) first j :=
  .spanFrom first starts fun _ =>
    .ended (.addInit rfl And.right (fun known => designate known.1) fun known => inside known.1)

/-! ## Operators -/

theorem covers_join {left right : Span} {middle behind last : Nat}
    (ordered : sheet.tokens.Ordered) (lefts : sheet.tokens.Covers left first middle)
    (rights : sheet.tokens.Covers right behind last) (apart : middle ≤ behind) :
    sheet.tokens.Covers (left.join right) first last := by
  have one := lefts.some
  have other := rights.some
  have inside := rights.inside
  refine ⟨by omega, inside, ?_, ?_⟩
  · have before : left.start ≤ right.start := by
      rw [lefts.start, rights.start]
      exact ordered.start_mono (by omega) (by omega)
    rw [← lefts.start]
    exact min_eq_left before
  · have behind : left.finish ≤ right.finish := by
      rw [lefts.finish, rights.finish]
      exact ordered.finish_mono (by omega) (by omega)
    rw [← rights.finish]
    exact max_eq_right behind

/-- A binary node covers what its operands cover and what is between them. -/
theorem joined_lays {op : BinaryOp} {left right : ExprId} {middle behind : Nat}
    (lefts : given → sheet.Lies (.expr left) first middle)
    (rights : given → sheet.Lies (.expr right) behind i) (apart : middle ≤ behind) :
    Lays sheet given i (joined op left right) fun j id => sheet.Lies (.expr id) first j := by
  refine .inOrder (.exprSpan fun one => .exprSpan fun other => .ended (.addExpr ?_ ?_))
  · rintro ⟨⟨⟨known, ordered⟩, foundLeft⟩, foundRight⟩
    exact covers_join ordered ((lefts known).covers foundLeft) ((rights known).covers foundRight)
      apart
  · rintro ⟨⟨⟨known, -⟩, -⟩, -⟩
    exact ⟨middle, (lefts known).inside, (rights known).inside.mono apart (Nat.le_refl i)⟩

/-- A type in parentheses begins with a parenthesis. -/
theorem Lays.atParenthesizedType {β : Type} {next : Bool → Parse β} {final : Nat → β → Prop}
    (rest : ∀ typed, (typed = true → sheet.tokens.kind i = .punctuator .parenOpen) →
      Lays sheet given i (next typed) final) :
    Lays sheet given i (Grammar.atParenthesizedType >>= next) final := by
  rintro s value s' rfl inside run
  obtain ⟨typed, middle, looked, done⟩ := bind_ok run
  obtain ⟨same, rfl, -⟩ := atParenthesizedType_ok looked
  refine rest typed (fun opens => ?_) middle value s' rfl inside done
  rw [opens] at same
  exact of_decide_eq_true (Bool.and_eq_true_iff.mp same.symm).1

/-- There is no operator here, or one that a mark writes. -/
theorem Lays.operatorAt {β : Type} {admits : BinaryOp → Bool} {next : Option BinaryOp → Parse β}
    {final : Nat → β → Prop} (none : Lays sheet given i (next none) final)
    (some : ∀ op mark, sheet.tokens.kind i = .punctuator mark →
      Lays sheet given i (next (some op)) final) :
    Lays sheet given i (Grammar.operatorAt admits >>= next) final := by
  rintro s value s' rfl inside run
  obtain ⟨found, middle, looked, done⟩ := bind_ok run
  obtain ⟨rfl, -, marks⟩ := operatorAt_ok looked
  cases found with
  | none => exact none middle value s' rfl inside done
  | some op =>
      obtain ⟨mark, there, -⟩ := marks op rfl
      exact some op mark there middle value s' rfl inside done

/-! ## Primary expressions and suffixes -/

theorem argumentList_lays (lay : rules.AllLay sheet) :
    Lays sheet given i (argumentList rules) fun j found => sheet.Inside (parts found) i j := by
  refine .at? fun closes _ => ?_
  split
  · exact .pure fun _ => Sheet.inside_nil
  · exact .separatedInside fun k _ => (lay.assignment _ k).answer fun _ _ _ _ => Sheet.Lies.inside

theorem arguments_lays (lay : rules.AllLay sheet) :
    Lays sheet given i (arguments rules) fun j found => sheet.Inside (parts found) i j := by
  refine .bind (argumentList_lays lay) fun found j le => .expect (by simp) (.pure ?_)
  exact fun known => known.2.mono (Nat.le_refl i) (Nat.le_succ j)

theorem suffixRound_lays (lay : rules.AllLay sheet) {start : Location} {operand : ExprId}
    (starts : given → start = sheet.tokens.start first)
    (lies : given → sheet.Lies (.expr operand) first i) :
    Lays sheet given i (suffixRound rules start operand)
      fun j next => sheet.Lies (.expr (next.getD operand)) first j := by
  have begins {k : Nat} (further : i ≤ k) (known : given) :
      start = sheet.tokens.start first ∧ first < k :=
    ⟨starts known, (lies known).some.trans_le further⟩
  have unary {k : Nat} (further : i ≤ k) (known : given) :
      sheet.Inside [.expr operand] first k :=
    (lies known).inside.mono (Nat.le_refl first) further
  refine .peek fun kind there => ?_
  split
  · refine .advance there (by simp) (.bind (lay.expression _ _) fun index j le => ?_)
    refine .expect (by simp) (offeredExpr_lays (fun known => begins (by omega) known.1) ?_)
    exact fun known => ⟨i, (lies known.1).inside, known.2.inside.mono (by omega) (by omega)⟩
  · refine .advance there (by simp) (.bind (arguments_lays lay) fun found j le => ?_)
    refine offeredExpr_lays (fun known => begins (by omega) known.1) fun known => ?_
    exact Sheet.inside_cons.mpr ⟨unary (by omega) known.1,
      known.2.mono ((lies known.1).some.le.trans (Nat.le_succ i)) (Nat.le_refl j)⟩
  · exact .advance there (by simp) (.identifier fun field =>
      offeredExpr_lays (begins (by omega)) (unary (by omega)))
  · exact .advance there (by simp) (.identifier fun field =>
      offeredExpr_lays (begins (by omega)) (unary (by omega)))
  · exact .advance there (by simp) (offeredExpr_lays (begins (by omega)) (unary (by omega)))
  · exact .advance there (by simp) (offeredExpr_lays (begins (by omega)) (unary (by omega)))
  · exact .pure lies

theorem suffixed_lays (lay : rules.AllLay sheet) {operand : ExprId}
    (lies : given → sheet.Lies (.expr operand) first i) :
    Lays sheet given i (suffixed rules operand) fun j id => sheet.Lies (.expr id) first j := by
  refine .exprSpan fun span => .iterate (fun known => lies known.1) fun value k le => ?_
  refine suffixRound_lays lay (fun known => ?_) And.right
  exact ((lies known.1.1).covers known.1.2).start

theorem stringPiece?_lays :
    Lays sheet given i stringPiece? fun j next => next.elim (j = i) fun _ => i < j := by
  refine .peek fun kind there => ?_
  split
  · exact .advance there (by simp) (.pure fun _ => Nat.lt_succ_self i)
  · exact .pure fun _ => rfl

theorem stringPieces_lays {text : String} (there : sheet.tokens.kind i = .string text) :
    Lays sheet given i (Parse.many stringPiece?) fun j _ => i < j := by
  have pieces : Lays sheet given i (Parse.many stringPiece?) fun j pieces =>
      Consecutive (fun k j _ => k < j) i pieces j :=
    .many _ fun k _ => stringPiece?_lays
  refine (pieces.observing (· ≠ []) fun s found s' start run => ?_).answer
    fun j found _ _ known => ?_
  · cases many_ok run with
    | stop last =>
        obtain ⟨kind, here, rest⟩ := peek_then last
        rw [start, there] at here
        obtain rfl := here
        obtain ⟨_, _, -, done⟩ := bind_ok rest
        cases done
    | next => simp
  · obtain ⟨consecutive, some⟩ := known
    cases consecutive with
    | stop => exact absurd rfl some
    | next further _ rest => exact further.trans_le rest.le

theorem memberPathRound_lays (lay : rules.AllLay sheet) {start : Location} {path : ExprId}
    (starts : given → start = sheet.tokens.start first)
    (lies : given → sheet.Lies (.expr path) first i) :
    Lays sheet given i (memberPathRound rules start path)
      fun j next => sheet.Lies (.expr (next.getD path)) first j := by
  have begins {k : Nat} (further : i ≤ k) (known : given) :
      start = sheet.tokens.start first ∧ first < k :=
    ⟨starts known, (lies known).some.trans_le further⟩
  refine .peek fun kind there => ?_
  split
  · refine .advance there (by simp) (.identifier fun field => ?_)
    refine offeredExpr_lays (begins (by omega)) fun known => ?_
    exact (lies known).inside.mono (Nat.le_refl first) (by omega)
  · refine .advance there (by simp) (.bind (lay.expression _ _) fun index j le => ?_)
    refine .expect (by simp) (offeredExpr_lays (fun known => begins (by omega) known.1) ?_)
    exact fun known => ⟨i, (lies known.1).inside, known.2.inside.mono (by omega) (by omega)⟩
  · exact .pure lies

theorem memberPath_lays (lay : rules.AllLay sheet) :
    Lays sheet given i (memberPath rules) fun j id => sheet.Lies (.expr id) i j := by
  refine .here (.identifier fun name => ?_)
  refine .spanFrom i (fun _ => ⟨rfl, Nat.lt_succ_self i⟩) fun span => ?_
  refine .bind (.addExpr And.right fun _ => Sheet.inside_nil) fun head j le => ?_
  refine .iterate (fun known => ?_) fun path k further => ?_
  · obtain ⟨-, rfl, lies⟩ := known
    exact lies
  · exact memberPathRound_lays lay (fun _ => rfl) And.right

theorem primary_lays (lay : rules.AllLay sheet) :
    Lays sheet given i (primary rules) fun j id => sheet.Lies (.expr id) i j := by
  have begins {k : Nat} (further : i + 1 ≤ k) :
      sheet.tokens.start i = sheet.tokens.start i ∧ i < k := ⟨rfl, further⟩
  refine .here (.peek fun kind there => ?_)
  split
  · exact .advance there (by simp)
      (spannedExpr_lays (fun _ => begins (Nat.le_refl _)) fun _ => Sheet.inside_nil)
  · exact .advance there (by simp)
      (spannedExpr_lays (fun _ => begins (Nat.le_refl _)) fun _ => Sheet.inside_nil)
  · exact .advance there (by simp)
      (spannedExpr_lays (fun _ => begins (Nat.le_refl _)) fun _ => Sheet.inside_nil)
  · refine .bind (stringPieces_lays there) fun pieces j le => ?_
    exact spannedExpr_lays (fun known => ⟨rfl, known.2⟩) fun _ => Sheet.inside_nil
  · refine .advance there (by simp) (.bind (lay.expression _ _) fun inner j le => ?_)
    refine .expect (by simp) (spannedExpr_lays (fun _ => begins (by omega)) fun known => ?_)
    exact known.2.inside.mono (Nat.le_succ i) (Nat.le_succ j)
  · refine .advance there (by simp) (.expect (by simp) (.past (lay.typeName _ _) ?_))
    refine fun type j le => .expect (by simp) (.bind (memberPath_lays lay) fun path k further => ?_)
    refine .expect (by simp) (spannedExpr_lays (fun _ => begins (by omega)) fun known => ?_)
    exact known.2.inside.mono (by omega) (Nat.le_succ k)
  · refine .advance there (by simp) (.expect (by simp) (.bind (lay.assignment _ _) ?_))
    refine fun list j le => .expect (by simp) (.past (lay.typeName _ _) fun type k further => ?_)
    refine .expect (by simp) (spannedExpr_lays (fun _ => begins (by omega)) fun known => ?_)
    exact known.2.inside.mono (by omega) (by omega)
  · exact .fail

/-! ## Unary expressions and casts -/

theorem sizeofOperand_lays (lay : rules.AllLay sheet) {start : Location}
    (starts : given → start = sheet.tokens.start first ∧ first < i) :
    Lays sheet given i (sizeofOperand rules start) fun j id => sheet.Lies (.expr id) first j := by
  have begins {k : Nat} (further : i ≤ k) (known : given) :
      start = sheet.tokens.start first ∧ first < k :=
    ⟨(starts known).1, (starts known).2.trans_le further⟩
  refine .atParenthesizedType fun typed opens => ?_
  split
  · next parenthesized =>
    refine .advance (opens parenthesized) (by simp) (.past (lay.typeName _ _) fun type j le => ?_)
    exact .expect (by simp) (spannedExpr_lays (begins (by omega)) fun _ => Sheet.inside_nil)
  · refine .bind (lay.unary _ _) fun operand j le => ?_
    refine spannedExpr_lays (fun known => begins le known.1) fun known => ?_
    exact known.2.inside.mono (starts known.1).2.le (Nat.le_refl j)

theorem prefixOperand_lays (lay : rules.AllLay sheet) {op : UnaryOp} :
    Lays sheet given i (prefixOperand rules op) fun j id => sheet.Lies (.expr id) i j := by
  unfold prefixOperand
  split
  · exact lay.unary given i
  · exact lay.unary given i
  · exact lay.cast given i

theorem unary_lays (lay : rules.AllLay sheet) :
    Lays sheet given i (unary rules) fun j id => sheet.Lies (.expr id) i j := by
  have suffixedPrimary : Lays sheet given i (primary rules >>= suffixed rules)
      fun j id => sheet.Lies (.expr id) i j :=
    .bind (primary_lays lay) fun _ _ _ => suffixed_lays lay And.right
  refine .here (.peek fun kind there => ?_)
  split
  · split
    · refine .advance there (by simp) (.bind (prefixOperand_lays lay) fun operand j le => ?_)
      refine spannedExpr_lays (fun _ => ⟨rfl, le⟩) fun known => ?_
      exact known.2.inside.mono (Nat.le_succ i) (Nat.le_refl j)
    · exact suffixedPrimary
  · exact .advance there (by simp)
      (sizeofOperand_lays lay fun _ => ⟨rfl, Nat.lt_succ_self i⟩)
  · exact suffixedPrimary

theorem cast_lays (lay : rules.AllLay sheet) :
    Lays sheet given i (cast rules) fun j id => sheet.Lies (.expr id) i j := by
  refine .atParenthesizedType fun typed opens => ?_
  split
  · next parenthesized =>
    refine .here (.advance (opens parenthesized) (by simp) (.past (lay.typeName _ _) ?_))
    refine fun type j le => .expect (by simp) (.here (.accept (by simp) ?_ ?_))
    · refine .bind (lay.initializers _ _) fun items k further => ?_
      refine .spanFrom (j + 1) (fun _ => ⟨rfl, by omega⟩) fun span => ?_
      refine .bind (.addInit rfl And.right (by simp [Sheet.AllDesignate]) fun known => ?_) ?_
      · exact known.1.2.mono (Nat.le_succ _) (Nat.le_refl k)
      refine fun init l behind => .spanFrom i (fun _ => ⟨rfl, by omega⟩) fun span => ?_
      refine .bind (.addExpr And.right fun known => ?_) fun literal m last => ?_
      · exact known.1.2.2.inside.mono (by omega) behind
      · refine suffixed_lays lay fun known => ?_
        obtain ⟨-, rfl, lies⟩ := known
        exact lies
    · refine .bind (lay.cast _ _) fun operand k further => ?_
      refine spannedExpr_lays (fun _ => ⟨rfl, by omega⟩) fun known => ?_
      exact known.2.inside.mono (by omega) (Nat.le_refl k)
  · exact unary_lays lay

/-! ## Binary operators, conditional, assignment, comma -/

theorem chain_lays {admits : BinaryOp → Bool} {operand : Parse ExprId}
    (lays : ∀ given i, Lays sheet given i operand fun j id => sheet.Lies (.expr id) i j) :
    Lays sheet given i (chain admits operand) fun j id => sheet.Lies (.expr id) i j := by
  refine .bind (lays given i) fun head j le => .iterate And.right fun left k further => ?_
  refine .operatorAt (.pure And.right) fun op mark there => .advance there (by simp) ?_
  refine .bind (lays _ (k + 1)) fun right l behind => .map ?_
  exact joined_lays (fun known => known.1.2) And.right (Nat.le_succ k)

theorem binary_lays (lay : rules.AllLay sheet) (tier : Nat) :
    ∀ given i, Lays sheet given i (binary rules tier) fun j id => sheet.Lies (.expr id) i j := by
  induction tier with
  | zero => exact fun _ _ => cast_lays lay
  | succ tier ih => exact fun _ _ => chain_lays ih

theorem conditional_lays (lay : rules.AllLay sheet) :
    Lays sheet given i (conditional rules) fun j id => sheet.Lies (.expr id) i j := by
  refine .here (.bind (binary_lays lay 10 given i) fun condition j le => ?_)
  refine .accept (by simp) ?_ (.pure And.right)
  refine .bind (lay.expression _ _) fun one k further => .expect (by simp) ?_
  refine .bind (lay.conditional _ _) fun other l behind => ?_
  refine spannedExpr_lays (fun _ => ⟨rfl, by omega⟩) ?_
  rintro ⟨⟨⟨_, condition⟩, one⟩, other⟩
  refine Sheet.inside_cons.mpr ⟨condition.inside.mono (Nat.le_refl i) (by omega), ?_⟩
  refine Sheet.inside_cons.mpr ⟨one.inside.mono (by omega) (by omega), ?_⟩
  exact other.inside.mono (by omega) (Nat.le_refl l)

theorem assignment_lays (lay : rules.AllLay sheet) :
    Lays sheet given i (assignment rules) fun j id => sheet.Lies (.expr id) i j := by
  refine .bind (conditional_lays lay) fun left j le => ?_
  refine .operatorAt (.pure And.right) fun op mark there => .advance there (by simp) ?_
  refine .bind (lay.assignment _ _) fun right k further => ?_
  exact joined_lays (fun known => known.1.2) And.right (Nat.le_succ j)

theorem expression_lays (lay : rules.AllLay sheet) :
    Lays sheet given i (expression rules) fun j id => sheet.Lies (.expr id) i j := by
  refine .here (.bind (.separated (fun k j id => sheet.Lies (.expr id) k j)
    fun k _ => assignment_lays lay) fun items j le => ?_)
  split
  · exact .pure fun known => known.2.2.2 _ rfl
  · refine spannedExpr_lays (fun known => ⟨rfl, ?_⟩) fun known => ?_
    · obtain ⟨-, found, some, -⟩ := known
      obtain ⟨head, others, rfl⟩ := List.exists_cons_of_ne_nil some
      obtain ⟨first, last, low, high, lies⟩ := found head List.mem_cons_self
      exact low.trans_lt (lies.some.trans_le high)
    · refine Sheet.inside_of_forall fun item member => ?_
      obtain ⟨first, last, low, high, lies⟩ := known.2.1 item member
      exact ⟨first, last, low, high, lies.inside⟩

end SyntaxGraph.Grammar

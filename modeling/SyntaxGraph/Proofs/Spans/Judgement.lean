import SyntaxGraph.Proofs.Grammar.Runs
import SyntaxGraph.Proofs.Spans.Sheet

/-!
# Readings that lay out nodes

A reading lays out what it adds: it extends the arenas and goes on in the tokens, and if the
arenas extend to those of the sheet, then every node that it has added is laid out there and
what it answers is as expected.  The layout is judged on the sheet, where all nodes are in
the end, so what is known of a node need not be proved again when others are added.  It is
judged under what is given, since an operand that has been read earlier lies where it has
been found to lie.

That the arenas are extended does not depend on what is given.
-/

set_option autoImplicit false

namespace SyntaxGraph.Grammar

open Token (Kind Keyword Punctuator)

variable {α β : Type} {sheet : Sheet} {given other : Prop} {i j first last : Nat} {kind : Kind}

/-- From one state to another the position moves on within the tokens. -/
structure Moves (sheet : Sheet) (s s' : State) : Prop where
  grows : s.arenas.ExtendsTo s'.arenas
  le : s.position ≤ s'.position
  inside : s'.position < sheet.tokens.size

/-- A reading from position `i` on, which ends at a position and with a value of which
`result` holds. -/
def Lays (sheet : Sheet) (given : Prop) (i : Nat) (reading : Parse α)
    (result : Nat → α → Prop) : Prop :=
  ∀ s value s', s.position = i → i < sheet.tokens.size →
    reading sheet.tokens s = .ok value s' →
    Moves sheet s s' ∧
      (s'.arenas.ExtendsTo sheet.arenas → sheet.tokens.Ordered → given →
        sheet.LaidSince s.arenas s'.arenas ∧ result s'.position value)

/-- The reading ends where it starts, and adds nothing. -/
def Still (reading : Parse α) : Prop :=
  ∀ tokens s value s', reading tokens s = .ok value s' →
    s'.position = s.position ∧ s'.arenas = s.arenas

theorem Observes.still {reading : Parse α} (observes : Observes reading) : Still reading := by
  intro tokens s value s' run
  obtain rfl := observes tokens s value s' run
  exact ⟨rfl, rfl⟩

theorem modifyScopes_still {change : Scopes → Scopes} : Still (Parse.modifyScopes change) := by
  intro tokens s value s' run
  cases run
  exact ⟨rfl, rfl⟩

theorem bindName_still {name : String} {kind : NameKind} : Still (Parse.bindName name kind) := by
  intro tokens s value s' run
  cases run
  exact ⟨rfl, rfl⟩

namespace Moves

variable {s middle s' : State}

theorem trans (one : Moves sheet s middle) (rest : Moves sheet middle s') : Moves sheet s s' where
  grows := one.grows.trans rest.grows
  le := one.le.trans rest.le
  inside := rest.inside

theorem stay (inside : s.position < sheet.tokens.size) (position : s'.position = s.position)
    (grows : s.arenas.ExtendsTo s'.arenas) : Moves sheet s s' :=
  ⟨grows, position.ge, position ▸ inside⟩

end Moves

/-! ## Places -/

theorem tokenAt_place {tokens : Tokens} {s s' : State} {place : Nat} {token : Token}
    (run : Parse.tokenAt place tokens s = .ok token s') :
    s' = s ∧ token.start = tokens.start place ∧ token.finish = tokens.finish place := by
  obtain ⟨inside, found⟩ := tokenAt_ok run
  refine ⟨tokenAt_observes _ _ _ _ run, ?_, ?_⟩
  · rw [Tokens.start, found]
    rfl
  · rw [Tokens.finish, found]
    rfl

theorem here_ok {tokens : Tokens} {s s' : State} {start : Location}
    (run : Parse.here tokens s = .ok start s') : start = tokens.start s.position ∧ s' = s := by
  have opened : (do return (← Parse.tokenAt s.position).start : Parse Location) tokens s =
      .ok start s' := run
  obtain ⟨token, middle, looked, done⟩ := bind_ok opened
  obtain ⟨rfl, same, -⟩ := tokenAt_place looked
  obtain ⟨rfl, rfl⟩ := pure_ok done
  exact ⟨same, rfl⟩

theorem finishBefore_ok {tokens : Tokens} {s s' : State} {finish : Location}
    (run : Parse.finishBefore tokens s = .ok finish s') :
    finish = tokens.finish (s.position - 1) ∧ s' = s := by
  have opened : (do return (← Parse.tokenAt (s.position - 1)).finish : Parse Location) tokens s =
      .ok finish s' := run
  obtain ⟨token, middle, looked, done⟩ := bind_ok opened
  obtain ⟨rfl, -, same⟩ := tokenAt_place looked
  obtain ⟨rfl, rfl⟩ := pure_ok done
  exact ⟨same, rfl⟩

theorem spanFrom_ok {tokens : Tokens} {s s' : State} {start : Location} {span : Span}
    (run : Parse.spanFrom start tokens s = .ok span s') :
    span = ⟨start, max (tokens.finish (s.position - 1)) start⟩ ∧ s' = s := by
  obtain ⟨finish, middle, looked, done⟩ := bind_ok run
  obtain ⟨rfl, rfl⟩ := finishBefore_ok looked
  exact pure_ok done

theorem present_ok {tokens : Tokens} {s s' : State} {node : NodeRef} {found : Option α} {value : α}
    (run : Parse.present node found tokens s = .ok value s') : found = some value ∧ s' = s := by
  cases found with
  | none => cases run
  | some there =>
      obtain ⟨rfl, rfl⟩ := pure_ok run
      exact ⟨rfl, rfl⟩

theorem exprSpan_ok {tokens : Tokens} {s s' : State} {id : ExprId} {span : Span}
    (run : Parse.exprSpan id tokens s = .ok span s') :
    s.arenas.span? (.expr id) = some span ∧ s' = s := by
  obtain ⟨expr, middle, looked, done⟩ := bind_ok run
  obtain ⟨arenas, _, observed, present⟩ := bind_ok looked
  cases observed
  obtain ⟨found, rfl⟩ := present_ok present
  obtain ⟨rfl, rfl⟩ := pure_ok done
  exact ⟨Option.map_eq_some_iff.mpr ⟨expr, found, rfl⟩, rfl⟩

theorem declSpan_ok {tokens : Tokens} {s s' : State} {id : DeclId} {span : Span}
    (run : Parse.declSpan id tokens s = .ok span s') :
    s.arenas.span? (.decl id) = some span ∧ s' = s := by
  obtain ⟨decl, middle, looked, done⟩ := bind_ok run
  obtain ⟨arenas, _, observed, present⟩ := bind_ok looked
  cases observed
  obtain ⟨found, rfl⟩ := present_ok present
  obtain ⟨rfl, rfl⟩ := pure_ok done
  exact ⟨Option.map_eq_some_iff.mpr ⟨decl, found, rfl⟩, rfl⟩

namespace Lays

variable {result : Nat → α → Prop} {final : Nat → β → Prop}

/-! ## Composition -/

theorem still {reading : Parse α} (same : Still reading) :
    Lays sheet given i reading fun j _ => j = i := by
  rintro s value s' rfl inside run
  obtain ⟨position, arenas⟩ := same _ s value s' run
  refine ⟨.stay inside position (arenas ▸ .refl _), fun _ _ _ => ⟨?_, position⟩⟩
  rw [arenas]
  exact .refl _

theorem pure {value : α} (holds : given → result i value) :
    Lays sheet given i (Pure.pure value) result := by
  rintro s found s' rfl inside run
  obtain ⟨rfl, rfl⟩ := pure_ok run
  exact ⟨.stay inside rfl (.refl _), fun _ _ known => ⟨.refl _, holds known⟩⟩

theorem fail {cause : Cause} : Lays sheet given i (Parse.fail cause : Parse α) result := by
  intro s value s' _ _ run
  cases run

theorem refuse {cause : Cause} {next : β → Parse α} :
    Lays sheet given i (Parse.fail cause >>= next) result := by
  intro s value s' _ _ run
  cases run

theorem bind {reading : Parse α} {next : α → Parse β} (one : Lays sheet given i reading result)
    (rest : ∀ value j, i ≤ j → Lays sheet (given ∧ result j value) j (next value) final) :
    Lays sheet given i (reading >>= next) final := by
  rintro s value s' rfl inside run
  obtain ⟨found, middle, ran, done⟩ := bind_ok run
  obtain ⟨early, layEarly⟩ := one s found middle rfl inside ran
  obtain ⟨late, layLate⟩ :=
    rest found middle.position early.le middle value s' rfl early.inside done
  refine ⟨early.trans late, fun extension ordered known => ?_⟩
  obtain ⟨laid, holds⟩ := layEarly (late.grows.trans extension) ordered known
  obtain ⟨more, ends⟩ := layLate extension ordered ⟨known, holds⟩
  exact ⟨laid.trans more, ends⟩

theorem weaken {reading : Parse α} (lays : Lays sheet other i reading result)
    (implies : given → other) : Lays sheet given i reading result := by
  intro s value s' start inside run
  obtain ⟨moves, lay⟩ := lays s value s' start inside run
  exact ⟨moves, fun extension ordered known => lay extension ordered (implies known)⟩

/-- A reading of whose value nothing need be known. -/
theorem past {reading : Parse α} {next : α → Parse β} (one : Lays sheet given i reading result)
    (rest : ∀ value j, i ≤ j → Lays sheet given j (next value) final) :
    Lays sheet given i (reading >>= next) final :=
  one.bind fun value j le => (rest value j le).weaken And.left

theorem inOrder {reading : Parse α}
    (lays : Lays sheet (given ∧ sheet.tokens.Ordered) i reading result) :
    Lays sheet given i reading result := by
  intro s value s' start inside run
  obtain ⟨moves, lay⟩ := lays s value s' start inside run
  exact ⟨moves, fun extension ordered known => lay extension ordered ⟨known, ordered⟩⟩

theorem answer {reading : Parse α} {better : Nat → α → Prop}
    (lays : Lays sheet given i reading result)
    (implies : ∀ j value, given → i ≤ j → result j value → better j value) :
    Lays sheet given i reading better := by
  rintro s value s' rfl inside run
  obtain ⟨moves, lay⟩ := lays s value s' rfl inside run
  refine ⟨moves, fun extension ordered known => ?_⟩
  obtain ⟨laid, holds⟩ := lay extension ordered known
  exact ⟨laid, implies _ _ known moves.le holds⟩

/-- What a run tells of the value that it answers. -/
theorem observing {reading : Parse α} (lays : Lays sheet given i reading result)
    (fact : α → Prop)
    (tells : ∀ s value s', s.position = i → reading sheet.tokens s = .ok value s' → fact value) :
    Lays sheet given i reading fun j value => result j value ∧ fact value := by
  intro s value s' start inside run
  obtain ⟨moves, lay⟩ := lays s value s' start inside run
  refine ⟨moves, fun extension ordered known => ?_⟩
  obtain ⟨laid, holds⟩ := lay extension ordered known
  exact ⟨laid, holds, tells s value s' start run⟩

theorem map {reading : Parse α} {change : α → β}
    (lays : Lays sheet given i reading fun j value => final j (change value)) :
    Lays sheet given i (change <$> reading) final :=
  lays.bind fun _ _ _ => .pure And.right

/-! ## Tokens -/

theorem look {reading : Parse α} {next : α → Parse β} (same : Still reading)
    (rest : ∀ value, Lays sheet given i (next value) final) :
    Lays sheet given i (reading >>= next) final := by
  rintro s value s' rfl inside run
  obtain ⟨found, middle, ran, done⟩ := bind_ok run
  obtain ⟨position, arenas⟩ := same _ s found middle ran
  have lays := rest found middle value s' position inside done
  rw [arenas] at lays
  obtain ⟨moves, lay⟩ := lays
  refine ⟨⟨arenas ▸ moves.grows, position ▸ moves.le, moves.inside⟩, lay⟩

theorem peek {next : Kind → Parse β}
    (rest : ∀ kind, sheet.tokens.kind i = kind → Lays sheet given i (next kind) final) :
    Lays sheet given i (Parse.peek >>= next) final := by
  rintro s value s' rfl inside run
  obtain ⟨found, there, done⟩ := peek_then run
  exact rest found there s value s' rfl inside done

theorem at? {next : Bool → Parse β}
    (rest : ∀ found, (found = true → sheet.tokens.kind i = kind) →
      Lays sheet given i (next found) final) :
    Lays sheet given i (Parse.at? kind >>= next) final := by
  rintro s value s' rfl inside run
  obtain ⟨found, middle, looked, done⟩ := bind_ok run
  obtain ⟨same, rfl, -⟩ := at?_ok looked
  exact rest found (fun there => of_decide_eq_true (same.symm.trans there)) middle value s' rfl
    inside done

theorem here {next : Location → Parse β}
    (rest : Lays sheet given i (next (sheet.tokens.start i)) final) :
    Lays sheet given i (Parse.here >>= next) final := by
  rintro s value s' rfl inside run
  obtain ⟨start, middle, looked, done⟩ := bind_ok run
  obtain ⟨rfl, rfl⟩ := here_ok looked
  exact rest middle value s' rfl inside done

/-- The reading goes on behind one token. -/
theorem step {reading : Parse α} {next : α → Parse β}
    (steps : ∀ s value s', s.position = i → reading sheet.tokens s = .ok value s' →
      s' = { s with position := s.position + 1 } ∧ s.position + 1 < sheet.tokens.size)
    (rest : ∀ value, Lays sheet given (i + 1) (next value) final) :
    Lays sheet given i (reading >>= next) final := by
  rintro s value s' rfl inside run
  obtain ⟨found, middle, ran, done⟩ := bind_ok run
  obtain ⟨rfl, further⟩ := steps s found middle rfl ran
  obtain ⟨moves, lay⟩ := rest found _ value s' rfl further done
  exact ⟨⟨moves.grows, (Nat.le_succ _).trans moves.le, moves.inside⟩, lay⟩

theorem advance {next : Unit → Parse β} (there : sheet.tokens.kind i = kind) (inner : kind ≠ .eof)
    (rest : Lays sheet given (i + 1) (next ()) final) :
    Lays sheet given i (Parse.advance >>= next) final := by
  refine step (fun s value s' start run => advance_ok run ?_) fun _ => rest
  rw [start, there]
  exact inner

theorem expect {context : String} {next : Unit → Parse β} (inner : kind ≠ .eof)
    (rest : Lays sheet given (i + 1) (next ()) final) :
    Lays sheet given i (Parse.expect kind context >>= next) final :=
  step (fun _ _ _ _ run => (expect_ok inner run).2) fun _ => rest

theorem advance_moves : Lays sheet given i Parse.advance fun _ _ => True := by
  rintro s value s' rfl inside run
  by_cases inner : sheet.tokens.kind s.position = .eof
  · obtain ⟨found, middle, looked, rest⟩ := bind_ok run
    obtain ⟨rfl, rfl, -⟩ := peek_ok looked
    rw [if_neg (not_not.mpr inner)] at rest
    obtain ⟨-, rfl⟩ := pure_ok rest
    exact ⟨.stay inside rfl (.refl _), fun _ _ _ => ⟨.refl _, trivial⟩⟩
  · obtain ⟨rfl, further⟩ := advance_ok run inner
    exact ⟨⟨.refl _, Nat.le_succ _, further⟩, fun _ _ _ => ⟨.refl _, trivial⟩⟩

theorem accept_moves (inner : kind ≠ .eof) :
    Lays sheet given i (Parse.accept kind) fun _ _ => True := by
  refine .peek fun found there => ?_
  split
  · next same => exact .advance there (same ▸ inner) (.pure fun _ => trivial)
  · exact .pure fun _ => trivial

theorem identifier_moves : Lays sheet given i Parse.identifier fun _ _ => True := by
  refine .peek fun found there => ?_
  split
  · exact .advance there (by simp) (.pure fun _ => trivial)
  · exact .fail

theorem identifier?_moves : Lays sheet given i Parse.identifier? fun _ _ => True := by
  refine .peek fun found there => ?_
  split
  · exact .advance there (by simp) (.pure fun _ => trivial)
  · exact .pure fun _ => trivial

theorem identifier {next : String → Parse β}
    (rest : ∀ name, Lays sheet given (i + 1) (next name) final) :
    Lays sheet given i (Parse.identifier >>= next) final := by
  rintro s value s' rfl inside run
  obtain ⟨name, middle, ran, done⟩ := bind_ok run
  obtain ⟨-, rfl⟩ := identifier_ok ran
  have identifies : Lays sheet True s.position Parse.identifier fun _ _ => True := identifier_moves
  have moves := (identifies s name _ rfl inside ran).1
  obtain ⟨more, lay⟩ := rest name _ value s' rfl moves.inside done
  exact ⟨moves.trans more, lay⟩

/-- Either the token is consumed, or nothing is. -/
theorem accept {next : Bool → Parse β} (inner : kind ≠ .eof)
    (taken : Lays sheet given (i + 1) (next true) final)
    (passed : Lays sheet given i (next false) final) :
    Lays sheet given i (Parse.accept kind >>= next) final := by
  rintro s value s' rfl inside run
  obtain ⟨found, middle, ran, done⟩ := bind_ok run
  have accepts : Lays sheet True s.position (Parse.accept kind) fun _ _ => True :=
    accept_moves inner
  have moves := (accepts s found middle rfl inside ran).1
  have answer := accept_ok inner ran
  cases found with
  | true =>
      obtain ⟨-, rfl⟩ := answer
      obtain ⟨more, lay⟩ := taken _ value s' rfl moves.inside done
      exact ⟨moves.trans more, lay⟩
  | false =>
      obtain ⟨-, rfl⟩ := answer
      exact passed _ value s' rfl inside done

/-! ## Spans -/

theorem finishBefore {next : Location → Parse β}
    (rest : Lays sheet given i (next (sheet.tokens.finish (i - 1))) final) :
    Lays sheet given i (Parse.finishBefore >>= next) final := by
  rintro s value s' rfl inside run
  obtain ⟨finish, middle, looked, done⟩ := bind_ok run
  obtain ⟨rfl, rfl⟩ := finishBefore_ok looked
  exact rest middle value s' rfl inside done

/-- A span that begins at an earlier token ends with the token in front of the position. -/
theorem spanFrom (first : Nat) {start : Location} {next : Span → Parse β}
    (starts : given → start = sheet.tokens.start first ∧ first < i)
    (rest : ∀ span, Lays sheet (given ∧ sheet.tokens.Covers span first i) i (next span) final) :
    Lays sheet given i (Parse.spanFrom start >>= next) final := by
  rintro s value s' rfl inside run
  obtain ⟨span, middle, looked, done⟩ := bind_ok run
  obtain ⟨same, rfl⟩ := spanFrom_ok looked
  obtain ⟨moves, lay⟩ := rest span middle value s' rfl inside done
  refine ⟨moves, fun extension ordered known => lay extension ordered ⟨known, ?_⟩⟩
  obtain ⟨rfl, before⟩ := starts known
  have later := ordered.start_lt_finish (Nat.le_sub_one_of_lt before) (by omega)
  exact ⟨before, inside, by rw [same], by rw [same, max_eq_left later.le]⟩

/-- A span that nothing need be known of. -/
theorem anySpan {start : Location} {next : Span → Parse β}
    (rest : ∀ span, Lays sheet given i (next span) final) :
    Lays sheet given i (Parse.spanFrom start >>= next) final :=
  .look spanFrom_observes.still rest

/-! ## Scopes -/

theorem bindName {name : String} {nameKind : NameKind} {next : Unit → Parse β}
    (rest : Lays sheet given i (next ()) final) :
    Lays sheet given i (Parse.bindName name nameKind >>= next) final :=
  .look bindName_still fun _ => rest

theorem inScope {body : Parse α} (lays : Lays sheet given i body result) :
    Lays sheet given i (Parse.inScope body) result := by
  rintro s value s' rfl inside run
  obtain ⟨middle, ran, rfl⟩ := inScope_ok run
  obtain ⟨moves, lay⟩ := lays { s with scopes := {} :: s.scopes } _ middle rfl inside ran
  exact ⟨⟨moves.grows, moves.le, moves.inside⟩, lay⟩

/-! ## Nodes -/

theorem add {ι : Type} {insert : Arenas → ι × Arenas} (new : ι → NodeRef) (facts : ι → Prop)
    (grows : ∀ a : Arenas, a.ExtendsTo (insert a).2)
    (only : ∀ (a : Arenas) node, a.owns node = false → (insert a).2.owns node = true →
      node = new (insert a).1)
    (laid : ∀ a : Arenas, (insert a).2.ExtendsTo sheet.arenas → given →
      sheet.Laid (new (insert a).1) ∧ facts (insert a).1) :
    Lays sheet given i (Parse.add insert) fun j id => j = i ∧ facts id := by
  rintro s value s' rfl inside run
  obtain ⟨rfl, rfl⟩ := add_ok run
  refine ⟨.stay inside rfl (grows _), fun extension _ known => ?_⟩
  obtain ⟨lies, holds⟩ := laid s.arenas extension known
  refine ⟨fun node missing owned => ?_, rfl, holds⟩
  rw [only s.arenas node missing owned]
  exact lies

theorem addDecl {decl : Decl} (fresh : decl.plain.unbound = decl)
    (covers : given → sheet.tokens.Covers decl.span first last)
    (inside : given → sheet.Inside (parts decl) first last) :
    Lays sheet given i (Parse.addDecl decl) fun j id => j = i ∧
      sheet.Lies (.decl id) first last :=
  .add .decl _ (·.addDecl_extends decl) (fun _ _ => Arenas.addDecl_owns)
    fun a extension known => by
      have found : sheet.arenas.decl? (a.addDecl decl).1 = some decl :=
        extension.decl Array.getElem?_push_size
      have plain : decl.comments = {} := congrArg Decl.comments fresh.symm
      have free : decl.unbound = decl := by rw [← fresh]; rfl
      exact ⟨⟨decl, found, plain, free, first, last, covers known, inside known⟩,
        decl.span, Option.map_eq_some_iff.mpr ⟨decl, found, rfl⟩, covers known⟩

theorem addType {type : TypeNode} (laid : given → sheet.TypeLaid type) :
    Lays sheet given i (Parse.addType type) fun j _ => j = i := by
  refine (add .type (fun _ => True) (·.addType_extends type)
    (fun _ _ => Arenas.addType_owns) fun a extension known => ⟨?_, trivial⟩).answer
      fun j _ _ _ => And.left
  obtain ⟨decls, found, change⟩ := extension.type (a.type?_addType_self type)
  refine ⟨_, found, fun shaped => ?_⟩
  have untagged : ¬ type.kind.isTagged = true := by
    have shaped : type.kind = .function ∨ type.kind = .array := shaped
    rcases shaped with same | same <;> simp [same, TypeKind.isTagged]
  obtain rfl := change.resolve_right untagged
  exact laid known shaped

theorem addExpr {form : Expr.Form} {span : Span}
    (covers : given → sheet.tokens.Covers span first last)
    (holds : given → sheet.Holds form first last) :
    Lays sheet given i (Parse.addExpr form span) fun j id => j = i ∧
      sheet.Lies (.expr id) first last :=
  .add .expr _ (·.addExpr_extends _) (fun _ _ => Arenas.addExpr_owns)
    fun a extension known => by
      have found : sheet.arenas.expr? (a.addExpr { form, span }).1 = some _ :=
        extension.expr Array.getElem?_push_size
      exact ⟨⟨_, found, rfl, rfl, first, last, covers known, holds known⟩,
        span, Option.map_eq_some_iff.mpr ⟨_, found, rfl⟩, covers known⟩

theorem addStmt {stmt : Stmt} (covers : given → sheet.tokens.Covers stmt.span first last)
    (inside : given → sheet.Inside (parts stmt) first last) :
    Lays sheet given i (Parse.addStmt stmt) fun j id => j = i ∧
      sheet.Lies (.stmt id) first last :=
  .add .stmt _ (·.addStmt_extends stmt) (fun _ _ => Arenas.addStmt_owns)
    fun a extension known => by
      have found : sheet.arenas.stmt? (a.addStmt stmt).1 = some stmt :=
        extension.stmt Array.getElem?_push_size
      exact ⟨⟨stmt, found, first, last, covers known, inside known⟩,
        stmt.span, Option.map_eq_some_iff.mpr ⟨stmt, found, rfl⟩, covers known⟩

theorem addInit {init : Init} (free : init.resolvedType = none)
    (covers : given → sheet.tokens.Covers init.span first last)
    (designate : given → sheet.AllDesignate init.designators first last)
    (inside : given → sheet.Inside init.form.parts first last) :
    Lays sheet given i (Parse.addInit init) fun j id => j = i ∧
      sheet.Lies (.init id) first last :=
  .add .init _ (·.addInit_extends init) (fun _ _ => Arenas.addInit_owns)
    fun a extension known => by
      have found : sheet.arenas.init? (a.addInit init).1 = some init :=
        extension.init Array.getElem?_push_size
      exact ⟨⟨init, found, free, first, last, covers known, designate known, inside known⟩,
        init.span, Option.map_eq_some_iff.mpr ⟨init, found, rfl⟩, covers known⟩

theorem addLabel {label : Label} (covers : given → sheet.tokens.Covers label.span first last)
    (inside : given → sheet.Inside (parts label) first last) :
    Lays sheet given i (Parse.addLabel label) fun j id => j = i ∧
      sheet.Lies (.label id) first last :=
  .add .label _ (·.addLabel_extends label) (fun _ _ => Arenas.addLabel_owns)
    fun a extension known => by
      have found : sheet.arenas.label? (a.addLabel label).1 = some label :=
        extension.label Array.getElem?_push_size
      exact ⟨⟨label, found, first, last, covers known, inside known⟩,
        label.span, Option.map_eq_some_iff.mpr ⟨label, found, rfl⟩, covers known⟩

/-- A node that ends in front of the position. -/
theorem ended {reading : Parse α} {node : α → NodeRef}
    (lays : Lays sheet given i reading fun j value => j = i ∧ sheet.Lies (node value) first i) :
    Lays sheet given i reading fun j value => sheet.Lies (node value) first j := by
  refine lays.answer fun j value _ _ added => ?_
  obtain ⟨rfl, lies⟩ := added
  exact lies

theorem inward {reading : Parse α} {node : α → NodeRef} {low : Nat}
    (lays : Lays sheet given i reading fun j value => sheet.Lies (node value) first j)
    (le : low ≤ first) :
    Lays sheet given i reading fun j value => sheet.Inside [node value] low j :=
  lays.answer fun j _ _ _ lies => lies.inside.mono le (Nat.le_refl j)

/-- The span of a node is the one that it has on the sheet. -/
theorem exprSpan {id : ExprId} {next : Span → Parse β}
    (rest : ∀ span, Lays sheet (given ∧ sheet.arenas.span? (.expr id) = some span) i
      (next span) final) :
    Lays sheet given i (Parse.exprSpan id >>= next) final := by
  rintro s value s' rfl inside run
  obtain ⟨span, middle, looked, done⟩ := bind_ok run
  obtain ⟨found, rfl⟩ := exprSpan_ok looked
  obtain ⟨moves, lay⟩ := rest span middle value s' rfl inside done
  exact ⟨moves, fun extension ordered known =>
    lay extension ordered ⟨known, (moves.grows.trans extension).span? found⟩⟩

theorem declSpan {id : DeclId} {next : Span → Parse β}
    (rest : ∀ span, Lays sheet (given ∧ sheet.arenas.span? (.decl id) = some span) i
      (next span) final) :
    Lays sheet given i (Parse.declSpan id >>= next) final := by
  rintro s value s' rfl inside run
  obtain ⟨span, middle, looked, done⟩ := bind_ok run
  obtain ⟨found, rfl⟩ := declSpan_ok looked
  obtain ⟨moves, lay⟩ := rest span middle value s' rfl inside done
  exact ⟨moves, fun extension ordered known =>
    lay extension ordered ⟨known, (moves.grows.trans extension).span? found⟩⟩

/-! ## Repetition -/

theorem iterates {step : α → Parse (Option α)} {value found : α} {s s' : State}
    (round : ∀ value k, i ≤ k → Lays sheet (given ∧ result k value) k (step value)
      fun j next => result j (next.getD value))
    (iterates : Iterates sheet.tokens step value s found s')
    (behind : i ≤ s.position) (inside : s.position < sheet.tokens.size) :
    Moves sheet s s' ∧ (s'.arenas.ExtendsTo sheet.arenas → sheet.tokens.Ordered → given →
      result s.position value →
        sheet.LaidSince s.arenas s'.arenas ∧ result s'.position found) := by
  induction iterates with
  | stop last =>
      obtain ⟨moves, lay⟩ := round _ _ behind _ _ _ rfl inside last
      exact ⟨moves, fun extension ordered known holds => lay extension ordered ⟨known, holds⟩⟩
  | next one _ ih =>
      obtain ⟨early, layEarly⟩ := round _ _ behind _ _ _ rfl inside one
      obtain ⟨late, layLate⟩ := ih (behind.trans early.le) early.inside
      refine ⟨early.trans late, fun extension ordered known holds => ?_⟩
      obtain ⟨laid, next⟩ := layEarly (late.grows.trans extension) ordered ⟨known, holds⟩
      obtain ⟨more, ends⟩ := layLate extension ordered known next
      exact ⟨laid.trans more, ends⟩

/-- What holds of the value before a round holds of the next one behind it. -/
theorem iterate {step : α → Parse (Option α)} {value : α} (start : given → result i value)
    (round : ∀ value k, i ≤ k → Lays sheet (given ∧ result k value) k (step value)
      fun j next => result j (next.getD value)) :
    Lays sheet given i (Parse.iterate step value) result := by
  rintro s found s' rfl inside run
  obtain ⟨moves, lay⟩ := iterates round (iterate_ok run) (Nat.le_refl _) inside
  exact ⟨moves, fun extension ordered known => lay extension ordered known (start known)⟩

/-- Rounds whose values nothing need be known of. -/
theorem iterateAny {step : α → Parse (Option α)} {value : α}
    (round : ∀ value k, i ≤ k → Lays sheet given k (step value) fun _ _ => True) :
    Lays sheet given i (Parse.iterate step value) fun _ _ => True :=
  .iterate (fun _ => trivial) fun value k le => (round value k le).weaken And.left

end Lays

/-- Each of the values has been found somewhere between two positions, as expected. -/
def Found (holds : Nat → Nat → α → Prop) (i j : Nat) (values : List α) : Prop :=
  ∀ value ∈ values, ∃ first last, i ≤ first ∧ last ≤ j ∧ holds first last value

/-- The values have been found one behind the other, as expected, from one position up to
another one. -/
inductive Consecutive (holds : Nat → Nat → α → Prop) : Nat → List α → Nat → Prop
  | stop (i : Nat) : Consecutive holds i [] i
  | next {i j k : Nat} {value : α} {values : List α} (here : holds i j value) (le : i ≤ j)
      (rest : Consecutive holds j values k) : Consecutive holds i (value :: values) k

namespace Consecutive

variable {holds : Nat → Nat → α → Prop} {values : List α}

theorem le (consecutive : Consecutive holds i values j) : i ≤ j := by
  induction consecutive with
  | stop => exact Nat.le_refl _
  | next _ le _ ih => exact le.trans ih

theorem imp {other : Nat → Nat → α → Prop} (consecutive : Consecutive holds i values j)
    (implies : ∀ first last value, last ≤ j → holds first last value → other first last value) :
    Consecutive other i values j := by
  induction consecutive with
  | stop => exact .stop _
  | next here le rest ih => exact .next (implies _ _ _ rest.le here) le (ih implies)

theorem found (consecutive : Consecutive holds i values j) : Found holds i j values := by
  induction consecutive with
  | stop => simp [Found]
  | next here le rest ih =>
      refine List.forall_mem_cons.mpr ⟨⟨_, _, Nat.le_refl _, rest.le, here⟩, fun value member => ?_⟩
      obtain ⟨first, last, lower, upper, there⟩ := ih value member
      exact ⟨first, last, le.trans lower, upper, there⟩

end Consecutive

namespace Lays

theorem collects {holds : Nat → Nat → α → Prop} {item : Parse (Option α)} {values : List α}
    {s s' : State} (each : ∀ k, i ≤ k → Lays sheet given k item
      fun j next => next.elim (j = k) (holds k j))
    (collects : Collects sheet.tokens item s values s') (behind : i ≤ s.position)
    (inside : s.position < sheet.tokens.size) :
    Moves sheet s s' ∧ (s'.arenas.ExtendsTo sheet.arenas → sheet.tokens.Ordered → given →
      sheet.LaidSince s.arenas s'.arenas ∧ Consecutive holds s.position values s'.position) := by
  induction collects with
  | stop last =>
      obtain ⟨moves, lay⟩ := each _ behind _ _ _ rfl inside last
      refine ⟨moves, fun extension ordered known => ?_⟩
      obtain ⟨laid, same⟩ := lay extension ordered known
      obtain same : _ = _ := same
      rw [same]
      exact ⟨laid, .stop _⟩
  | next one _ ih =>
      obtain ⟨early, layEarly⟩ := each _ behind _ _ _ rfl inside one
      obtain ⟨late, layLate⟩ := ih (behind.trans early.le) early.inside
      refine ⟨early.trans late, fun extension ordered known => ?_⟩
      obtain ⟨laid, here⟩ := layEarly (late.grows.trans extension) ordered known
      obtain ⟨more, rest⟩ := layLate extension ordered known
      exact ⟨laid.trans more, .next here early.le rest⟩

theorem many (holds : Nat → Nat → α → Prop) {item : Parse (Option α)}
    (each : ∀ k, i ≤ k → Lays sheet given k item
      fun j next => next.elim (j = k) (holds k j)) :
    Lays sheet given i (Parse.many item) fun j values => Consecutive holds i values j := by
  rintro s values s' rfl inside run
  exact collects each (many_ok run) (Nat.le_refl _) inside

/-- Items that own nodes. -/
theorem manyInside [Owning α] {item : Parse (Option α)}
    (each : ∀ k, i ≤ k → Lays sheet given k item
      fun j next => next.elim (j = k) fun value => sheet.Inside (parts value) k j) :
    Lays sheet given i (Parse.many item) fun j values => sheet.Inside (parts values) i j :=
  (Lays.many (fun k j value => sheet.Inside (parts value) k j) each).answer
    fun _ _ _ _ consecutive => Sheet.inside_of_forall consecutive.found

/-- One item or more; a single one is all that is read. -/
theorem separated (holds : Nat → Nat → α → Prop) {item : Parse α}
    (each : ∀ k, i ≤ k → Lays sheet given k item (holds k)) :
    Lays sheet given i (Parse.separated item) fun j values =>
      Found holds i j values ∧ values ≠ [] ∧ ∀ only, values = [only] → holds i j only := by
  have behindComma : ∀ k, i ≤ k → Lays sheet given k
      (do if ← Parse.acceptMark .comma then some <$> item else return none)
      fun j next => next.elim (j = k) fun value => ∃ first, k ≤ first ∧ holds first j value := by
    refine fun k le => .accept (by simp) ?_ ?_
    · exact .map ((each (k + 1) (by omega)).answer fun j value _ _ here =>
        ⟨k + 1, Nat.le_succ k, here⟩)
    · exact .pure fun _ => rfl
  refine .bind (each i (Nat.le_refl i)) fun head k le => ?_
  refine .bind ((Lays.many _ fun l further => behindComma l (le.trans further)).weaken And.left)
    fun others j further => .pure ?_
  intro known
  obtain ⟨⟨_, first⟩, rest⟩ := known
  refine ⟨List.forall_mem_cons.mpr ⟨⟨i, k, Nat.le_refl i, further, first⟩, fun value member => ?_⟩,
    List.cons_ne_nil _ _, fun only single => ?_⟩
  · obtain ⟨low, high, lower, upper, place, behind, there⟩ := rest.found value member
    exact ⟨place, high, by omega, upper, there⟩
  · obtain ⟨rfl, rfl⟩ := List.cons.inj single
    cases rest
    exact first

theorem separatedInside [Owning α] {item : Parse α}
    (each : ∀ k, i ≤ k → Lays sheet given k item fun j value => sheet.Inside (parts value) k j) :
    Lays sheet given i (Parse.separated item) fun j values => sheet.Inside (parts values) i j :=
  (Lays.separated (fun k j value => sheet.Inside (parts value) k j) each).answer
    fun _ _ _ _ found => Sheet.inside_of_forall found.1

theorem listedInside [Owning α] {close : Punctuator} {item : Parse α}
    (each : ∀ k, i ≤ k → Lays sheet given k item fun j value => sheet.Inside (parts value) k j) :
    Lays sheet given i (Parse.listed close item) fun j values =>
      sheet.Inside (parts values) i j := by
  have round (collected : Bool × List α) (k : Nat) (le : i ≤ k) :
      Lays sheet (given ∧ sheet.Inside (parts collected.2) i k) k
        (Parse.listedRound close item collected) fun j next =>
          sheet.Inside (parts (next.getD collected).2) i j := by
    obtain ⟨goesOn, values⟩ := collected
    refine .at? fun closed _ => ?_
    split
    · exact .pure And.right
    · refine .bind ((each k le).weaken And.left) fun next j further => ?_
      refine .past (accept_moves (by simp)) fun comma l behind => .pure ?_
      rintro ⟨⟨_, before⟩, here⟩
      rw [Option.getD_some, parts_cons, Sheet.inside_append]
      exact ⟨here.mono le behind, before.mono (Nat.le_refl i) (further.trans behind)⟩
  refine .bind (.iterate (fun _ => Sheet.inside_nil) round) fun collected j further => .pure ?_
  exact fun known => known.2.subset (parts_reverse_subset _)

end Lays

end SyntaxGraph.Grammar

import SyntaxGraph.Grammar.Rules
import SyntaxGraph.Proofs.Graph.Cover
import SyntaxGraph.Proofs.Grammar.Runs

/-!
# Readings and the nodes they hold

A reading is given nodes that are in no place yet, and answers a value with nodes that
somebody else is to place.  `Passes` says that nothing is lost or doubled on the way: if
every node is in one place, or held by the reading or by those who wait for it, before the
reading, then the same is true afterwards; and what is held leads to every declaration as
far as anything does.  A reading that is given nothing makes what its value owns; one that
answers nothing either spares what is held.

A type may be given to several readings.  It is held by the first of them and lent to the
others, since what has been lent need not be placed.  The types that are held or lent are
plain, and so are those that tags are bound to, so that each of them can be narrowed.  The
declarations that a type has lost to others stay with the log, from which nobody takes them.

Nothing is said of readings that fail, since no program comes of them.
-/

set_option autoImplicit false

namespace SyntaxGraph.Grammar

open Token (Kind Keyword Punctuator)

structure State.Kept (s : State) (lent held : List NodeRef) : Prop where
  keeps : s.arenas.Keeps (held ++ parts s.displaced)
  plain : s.arenas.AllPlain (lent ++ held ++ references s.scopes)

/-- Given `uses`, the reading answers with `gives` in their stead, whatever else is held or
lent. -/
def Passes {α : Type} (lent uses : List NodeRef) (reading : Parse α)
    (gives : α → List NodeRef) : Prop :=
  ∀ tokens s value s' others held, s.Kept (lent ++ others) (uses ++ held) →
    reading tokens s = .ok value s' → s'.Kept (lent ++ others) (gives value ++ held)

abbrev Makes {α : Type} [Owning α] (reading : Parse α) : Prop := Passes [] [] reading parts

abbrev Spares {α : Type} (reading : Parse α) : Prop := Passes [] [] reading fun _ => []

variable {α β : Type} {s : State} {lent held uses others kept : List NodeRef}
  {gives : α → List NodeRef} {kind : Kind} {id : TypeId}

namespace State.Kept

theorem congr (kept : s.Kept lent held) (same : ∀ node, held.count node = others.count node) :
    s.Kept lent others where
  keeps := kept.keeps.congr fun node => by rw [List.count_append, same, List.count_append]
  plain := by
    have inside : others ⊆ held := fun node member => by
      rw [← List.count_pos_iff, same]
      exact List.count_pos_iff.mpr member
    refine kept.plain.subset fun node member => ?_
    simp only [List.mem_append] at member ⊢
    rcases member with (lent | held) | bound
    · exact .inl (.inl lent)
    · exact .inl (.inr (inside held))
    · exact .inr bound

theorem lend (kept : s.Kept lent (.type id :: held)) :
    s.Kept (.type id :: lent) (.type id :: held) where
  keeps := kept.keeps
  plain := kept.plain.subset (by simp)

/-- Whatever is known to be plain may be held. -/
theorem hold (kept : s.Kept lent held) (known : .type id ∈ lent ++ held ++ references s.scopes) :
    s.Kept lent (.type id :: held) where
  keeps := kept.keeps.borrow id
  plain := kept.plain.subset fun node member => by
    simp only [List.mem_append, List.mem_cons] at member known ⊢
    rcases member with (lent | rfl | held) | bound
    · exact .inl (.inl lent)
    · exact known
    · exact .inl (.inr held)
    · exact .inr bound

theorem drop (kept : s.Kept lent (.type id :: held)) (leaf : s.arenas.holds (.type id) = []) :
    s.Kept lent held where
  keeps := kept.keeps.drop leaf
  plain := kept.plain.subset (by simp)

theorem returned (kept : s.Kept (.type id :: lent) held) : s.Kept lent held where
  keeps := kept.keeps
  plain := kept.plain.subset (by simp)

end State.Kept

namespace Passes

/-! ## Composition -/

theorem pure {value : α} (same : ∀ node, uses.count node = (gives value).count node) :
    Passes lent uses (Pure.pure value) gives := by
  intro tokens s result s' others held kept run
  obtain ⟨rfl, rfl⟩ := pure_ok run
  exact kept.congr fun node => by simp [same]

theorem fail {cause : Cause} : Passes lent uses (Parse.fail cause : Parse α) gives := by
  intro tokens s value s' others held kept run
  cases run

theorem refuse {cause : Cause} {next : β → Parse α} :
    Passes lent uses (Parse.fail cause >>= next) gives := by
  intro tokens s value s' others held kept run
  cases run

theorem bind {reading : Parse α} {next : α → Parse β} {final : β → List NodeRef}
    (first : Passes lent uses reading gives)
    (rest : ∀ value, Passes lent (gives value) (next value) final) :
    Passes lent uses (reading >>= next) final := by
  intro tokens s value s' others held kept run
  obtain ⟨found, middle, ran, done⟩ := bind_ok run
  exact rest found tokens middle value s' others held
    (first tokens s found middle others held kept ran) done

theorem map {reading : Parse α} {change : α → β} {final : β → List NodeRef}
    (passes : Passes lent uses reading fun value => final (change value)) :
    Passes lent uses (change <$> reading) final :=
  passes.bind fun _ => .pure fun _ => rfl

/-- Only how often a node is given counts, not in which order. -/
theorem sort {reading : Parse α} (passes : Passes lent others reading gives)
    (same : ∀ node, uses.count node = others.count node) : Passes lent uses reading gives := by
  intro tokens s value s' further held kept run
  refine passes tokens s value s' further held (kept.congr fun node => ?_) run
  simp only [List.count_append, same]

theorem answer {reading : Parse α} {final : α → List NodeRef}
    (passes : Passes lent uses reading gives)
    (same : ∀ value node, (gives value).count node = (final value).count node) :
    Passes lent uses reading final := by
  intro tokens s value s' others held kept run
  refine (passes tokens s value s' others held kept run).congr fun node => ?_
  simp only [List.count_append, same]

/-- What a reading is not given is still held when it has ended. -/
theorem frame {reading : Parse α} (passes : Passes lent uses reading gives)
    (kept : List NodeRef) :
    Passes lent (uses ++ kept) reading fun value => gives value ++ kept := by
  intro tokens s value s' others held before run
  rw [List.append_assoc] at before ⊢
  exact passes tokens s value s' others (kept ++ held) before run

/-- A reading that needs nothing of what is held. -/
theorem andThen {reading : Parse α} {next : α → Parse β} {final : β → List NodeRef}
    (first : Passes lent [] reading gives)
    (rest : ∀ value, Passes lent (gives value ++ uses) (next value) final) :
    Passes lent uses (reading >>= next) final :=
  (first.frame uses).bind rest

/-- A reading that neither needs nor answers any nodes. -/
theorem past {reading : Parse α} {next : α → Parse β} {final : β → List NodeRef}
    (spares : Passes lent [] reading fun _ => [])
    (rest : ∀ value, Passes lent uses (next value) final) :
    Passes lent uses (reading >>= next) final :=
  spares.andThen rest

/-- A reading that borrows nothing. -/
theorem alone {reading : Parse α} (passes : Passes [] uses reading gives) :
    Passes lent uses reading gives :=
  fun tokens s value s' others held kept run =>
    passes tokens s value s' (lent ++ others) held kept run

theorem lend {reading : Parse α} (passes : Passes [.type id] (.type id :: uses) reading gives) :
    Passes [] (.type id :: uses) reading gives :=
  fun tokens s value s' others held kept run =>
    (passes tokens s value s' others held kept.lend run).returned

theorem borrow {reading : Parse α} (passes : Passes [] (.type id :: uses) reading gives) :
    Passes [.type id] uses reading gives :=
  fun tokens s value s' others held kept run =>
    passes tokens s value s' (.type id :: others) held (kept.hold (by simp)) run

/-! ## Tokens and scopes -/

theorem keeping {reading : Parse α}
    (keeps : ∀ tokens s value s', reading tokens s = .ok value s' →
      s' = { s with position := s'.position }) :
    Passes lent [] reading fun _ => [] := by
  intro tokens s value s' others held kept run
  rw [keeps tokens s value s' run]
  exact ⟨kept.keeps, kept.plain⟩

theorem looking {reading : Parse α} (observes : Observes reading) :
    Passes lent [] reading fun _ => [] := by
  refine keeping fun tokens s value s' run => ?_
  obtain rfl := observes tokens s value s' run
  rfl

theorem peek : Passes lent [] Parse.peek fun _ => [] := .looking peek_observes

theorem here : Passes lent [] Parse.here fun _ => [] := .looking here_observes

theorem spanFrom {start : Location} : Passes lent [] (Parse.spanFrom start) fun _ => [] :=
  .looking spanFrom_observes

theorem at? : Passes lent [] (Parse.at? kind) fun _ => [] :=
  .bind .peek fun _ => .pure fun _ => rfl

theorem moveTo {place : Nat} : Passes lent [] (Parse.moveTo place) fun _ => [] := by
  refine .keeping fun tokens s value s' run => ?_
  obtain ⟨-, rfl⟩ := moveTo_ok run
  rfl

theorem advance : Passes lent [] Parse.advance fun _ => [] := by
  refine .bind .peek fun found => ?_
  split
  · exact .bind (.looking position_observes) fun _ => .moveTo
  · exact .pure fun _ => rfl

theorem accept : Passes lent [] (Parse.accept kind) fun _ => [] := by
  refine .bind .peek fun found => ?_
  split
  · exact .bind .advance fun _ => .pure fun _ => rfl
  · exact .pure fun _ => rfl

theorem expect {context : String} : Passes lent [] (Parse.expect kind context) fun _ => [] := by
  refine .bind .peek fun found => ?_
  split
  · exact .advance
  · exact .fail

theorem identifier : Passes lent [] Parse.identifier fun _ => [] := by
  refine .bind .peek fun found => ?_
  split
  · exact .bind .advance fun _ => .pure fun _ => rfl
  · exact .fail

theorem identifier? : Passes lent [] Parse.identifier? fun _ => [] := by
  refine .bind .peek fun found => ?_
  split
  · exact .bind .advance fun _ => .pure fun _ => rfl
  · exact .pure fun _ => rfl

theorem noteBound {name : String} {kind : NameKind} {next : DeclId} :
    Passes lent [] (Parse.note (.bound name kind next)) fun _ => [] := by
  intro tokens s value s' others held kept run
  cases run
  exact ⟨kept.keeps, kept.plain⟩

/-- To bind what is held changes nothing else. -/
theorem modifyScopes {change : Scopes → Scopes}
    (binds : ∀ scopes, references (change scopes) ⊆ uses ++ references scopes) :
    Passes lent uses (Parse.modifyScopes change) fun _ => uses := by
  intro tokens s value s' others held kept run
  cases run
  refine ⟨kept.keeps, kept.plain.subset fun node member => ?_⟩
  have bound := @binds s.scopes node
  simp only [List.mem_append] at member bound ⊢
  tauto

theorem bindName {name : String} {kind : NameKind} :
    Passes lent [] (Parse.bindName name kind) fun _ => [] :=
  .past (.looking arenas_observes) fun _ => .past .noteBound fun _ =>
    .modifyScopes fun scopes => scopes.bindName_references name kind

theorem bindTag {tag : String} :
    Passes lent [.type id] (Parse.bindTag tag id) fun _ => [.type id] :=
  .modifyScopes fun scopes => scopes.bindTag_references tag id

theorem inScope {body : Parse α} (passes : Passes lent uses body gives) :
    Passes lent uses (Parse.inScope body) gives := by
  intro tokens s value s' others held kept run
  obtain ⟨middle, ran, rfl⟩ := inScope_ok run
  have inner := passes tokens { s with scopes := {} :: s.scopes } _ middle others held
    ⟨kept.keeps, kept.plain⟩ ran
  refine ⟨inner.keeps, inner.plain.subset fun node member => ?_⟩
  have outer : node ∈ references middle.scopes.tail → node ∈ references middle.scopes :=
    fun inside => references_subset (List.tail_sublist _).subset inside
  simp only [List.mem_append] at member ⊢
  tauto

/-! ## Nodes -/

theorem add {ι : Type} {insert : Arenas → ι × Arenas} {brought : List NodeRef}
    {new : ι → List NodeRef}
    (carries : ∀ a : Arenas, a.Carries brought (insert a).2 (new (insert a).1))
    (keeps : ∀ (a : Arenas) (id : TypeId), a.Plain id → (insert a).2.Plain id)
    (plain : ∀ a : Arenas, (insert a).2.AllPlain (new (insert a).1)) :
    Passes lent brought (Parse.add insert) new := by
  intro tokens s value s' others held kept run
  obtain ⟨rfl, rfl⟩ := add_ok run
  refine ⟨(carries s.arenas).frame held _ kept.keeps, fun id member => ?_⟩
  have old := kept.plain id
  have new := plain s.arenas id
  simp only [List.mem_append] at member old new
  rcases member with (lent | new' | held) | bound
  · exact keeps _ _ (old (by tauto))
  · exact new new'
  · exact keeps _ _ (old (by tauto))
  · exact keeps _ _ (old (by tauto))

theorem addDecl {decl : Decl} (same : ∀ node, uses.count node = decl.holds.count node) :
    Passes lent uses (Parse.addDecl decl) parts :=
  .sort (.add (·.addDecl_carries decl) (fun _ _ plain => plain) fun _ _ member => by
    simp at member) same

theorem addType {type : TypeNode} (plain : type.isPlain = true)
    (same : ∀ node, uses.count node = type.holds.count node) :
    Passes lent uses (Parse.addType type) parts := by
  refine .sort (.add (·.addType_carries type) (fun _ _ plain => plain.addType type)
    fun a id member => ?_) same
  obtain rfl : id = (a.addType type).1 := by simpa using member
  exact a.plain_addType plain

/-- A new type that holds nothing need not be held by those who use it. -/
theorem addLeaf {type : TypeNode} {next : TypeId → Parse β} {final : β → List NodeRef}
    (plain : type.isPlain = true) (leaf : type.holds = [])
    (rest : ∀ id, Passes [.type id] uses (next id) final) :
    Passes [] uses (Parse.addType type >>= next) final := by
  intro tokens s value s' others held kept run
  obtain ⟨id, middle, adds, rests⟩ := bind_ok run
  have added : Passes [] [] (Parse.addType type) parts := .addType plain fun _ => by rw [leaf]
  have typed := (added tokens s id middle others _ kept adds).lend
  obtain ⟨rfl, rfl⟩ := add_ok adds
  have lent := typed.drop ((s.arenas.holds_addType type).trans leaf)
  exact (rest _ tokens _ value s' others held lent rests).returned

theorem addExpr {form : Expr.Form} {span : Span}
    (same : ∀ node, uses.count node = form.holds.count node) :
    Passes lent uses (Parse.addExpr form span) parts :=
  .sort (.add (·.addExpr_carries { form, span }) (fun _ _ plain => plain) fun _ _ member => by
    simp at member) fun node => by
      rw [same]
      simp only [Expr.holds, Expr.Form.holds, parts_expr, parts_nil, List.append_nil]

theorem addStmt {stmt : Stmt} (same : ∀ node, uses.count node = (parts stmt).count node) :
    Passes lent uses (Parse.addStmt stmt) parts :=
  .sort (.add (·.addStmt_carries stmt) (fun _ _ plain => plain) fun _ _ member => by
    simp at member) same

theorem addInit {init : Init} (same : ∀ node, uses.count node = (parts init).count node) :
    Passes lent uses (Parse.addInit init) parts :=
  .sort (.add (·.addInit_carries init) (fun _ _ plain => plain) fun _ _ member => by
    simp at member) same

theorem addLabel {label : Label} (same : ∀ node, uses.count node = (parts label).count node) :
    Passes lent uses (Parse.addLabel label) parts :=
  .sort (.add (·.addLabel_carries label) (fun _ _ plain => plain) fun _ _ member => by
    simp at member) same

theorem completeType {decls : List DeclId} :
    Passes lent (.type id :: parts decls) (Parse.completeType id decls) fun _ => [.type id] := by
  intro tokens s value s' others held kept run
  obtain ⟨type, middle, looks, completes⟩ := bind_ok run
  obtain ⟨found, rfl⟩ := typeNode_ok looks
  cases completes
  have carried := (Arenas.completeType_carries found decls).frame held _ kept.keeps
  refine ⟨carried.congr fun node => ?_,
    fun other member => (kept.plain other ?_).completeType id decls⟩
  · simp only [State.displaced, List.flatMap_cons, Entry.displaced, parts_append,
      List.cons_append, List.nil_append, List.count_cons, List.count_append]
    omega
  simp only [List.mem_append, List.mem_cons] at member ⊢
  tauto

theorem modifyComments {id : DeclId} {change : Comments → Comments} :
    Passes lent [] (Parse.modifyComments id change) fun _ => [] := by
  intro tokens s value s' others held kept run
  obtain ⟨decl, middle, looks, modifies⟩ := bind_ok run
  obtain rfl := declNode_observes _ _ _ _ looks
  cases modifies
  exact ⟨middle.arenas.modifyComments_carries id change _ kept.keeps, kept.plain⟩

/-! ## Repetition -/

/-- Each round is given what the last one has answered, and holds it still when it answers
nothing. -/
theorem iterate [Owning α] {step : α → Parse (Option α)}
    (round : ∀ value, Passes lent (parts value) (step value) fun next => parts (next.getD value))
    (value : α) : Passes lent (parts value) (Parse.iterate step value) parts := by
  intro tokens s final s' others held kept run
  have iterates := iterate_ok run
  clear run
  induction iterates with
  | stop last => exact round _ tokens _ none _ others held kept last
  | next one rest ih => exact ih (round _ tokens _ (some _) _ others held kept one)

/-- Rounds that answer values without parts. -/
theorem iterate_spares {step : α → Parse (Option α)}
    (round : ∀ value, Passes lent [] (step value) fun _ => []) (value : α) :
    Passes lent [] (Parse.iterate step value) fun _ => [] := by
  let _ : Owning α := ⟨fun _ => []⟩
  exact iterate round value

theorem many_spares {item : Parse (Option α)} (each : Passes lent [] item fun _ => []) :
    Passes lent [] (Parse.many item) fun _ => [] :=
  .map (iterate_spares (fun _ => .map each) [])

theorem many [Owning α] {item : Parse (Option α)} (each : Passes lent [] item parts) :
    Passes lent [] (Parse.many item) parts := by
  have round : ∀ found : List α, Passes lent (parts found) (Option.map (· :: found) <$> item)
      fun next => parts (next.getD found) := by
    refine fun found => .map ((each.frame (parts found)).answer fun next node => ?_)
    cases next <;> simp
  exact .map ((iterate round []).answer fun found node => by simp)

/-- The first item is given something that the others do without. -/
theorem separatedAfter [Owning α] {item : Parse α} (first : Passes lent uses item parts)
    (each : Passes lent [] item parts) : Passes lent uses (Parse.separated item) parts := by
  refine .bind first fun first => .andThen (many ?_) fun others => .pure fun node => ?_
  · refine .past .accept fun more => ?_
    split
    · exact .map each
    · exact .pure fun _ => rfl
  · simp [Nat.add_comm]

theorem separated [Owning α] {item : Parse α} (each : Passes lent [] item parts) :
    Passes lent [] (Parse.separated item) parts :=
  .separatedAfter each each

theorem listedRound [Owning α] {close : Punctuator} {item : Parse α}
    (each : Passes lent [] item parts) (collected : Bool × List α) :
    Passes lent (parts collected) (Parse.listedRound close item collected)
      fun next => parts (next.getD collected) := by
  obtain ⟨goesOn, found⟩ := collected
  refine .past .at? fun closed => ?_
  split
  · exact .pure fun _ => rfl
  · exact .andThen each fun next => .past .accept fun more => .pure fun node => by simp

theorem listed [Owning α] {close : Punctuator} {item : Parse α}
    (each : Passes lent [] item parts) : Passes lent [] (Parse.listed close item) parts :=
  .bind (.iterate (listedRound each) (true, [])) fun (_, found) => .pure fun node => by simp

theorem mapM [Owning α] [Owning β] {action : α → Parse β}
    (each : ∀ value, Passes lent (parts value) (action value) parts) (values : List α) :
    Passes lent (parts values) (values.mapM action) parts := by
  induction values with
  | nil => exact .pure fun _ => rfl
  | cons value values ih =>
      rw [List.mapM_cons]
      refine .bind ((each value).frame (parts values)) fun first => ?_
      refine .bind ((ih.frame (parts first)).sort fun node => ?_) fun others => ?_
      · simp [Nat.add_comm]
      · exact .pure fun node => by simp [Nat.add_comm]

end Passes

end SyntaxGraph.Grammar

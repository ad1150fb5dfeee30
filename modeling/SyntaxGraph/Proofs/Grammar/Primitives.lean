import SyntaxGraph.Proofs.Course.Judgement

/-!
# What the primitives of reading keep up

Looking at tokens and nodes changes nothing, consuming a token stays among the tokens,
adding or filling in a node keeps the arenas closed if what it brings in is owned, and
binding a tag is sound if its type is owned.
-/

set_option autoImplicit false

namespace SyntaxGraph.Grammar

open Token (Kind Keyword Punctuator)

variable {α : Type} {tokens : Tokens} {before : State → Prop} {after : α → State → Prop}
  {position consumed : Nat} {nodes : List NodeRef} {kind : Kind}

/-! ## Looking at the state -/

theorem tokenAt_apply {place : Nat} (inside : place < tokens.size) (s : State) :
    Parse.tokenAt place tokens s = .ok tokens[place] s := by
  have found : tokens[place]? = some tokens[place] := Array.getElem?_eq_getElem inside
  have readIt : (read : Parse Tokens) tokens s = .ok tokens s := rfl
  rw [Parse.tokenAt, bind_apply, readIt]
  simp only [found]
  rfl

theorem peek_apply {s : State} (sound : Sound tokens s) :
    Parse.peek tokens s = .ok (tokens.kind s.position) s := by
  have inside := sound.inside
  change (Parse.tokenAt s.position >>= _ : Parse Kind) tokens s = _
  rw [bind_apply, tokenAt_apply inside, Tokens.kind, Array.getElem?_eq_getElem inside]
  rfl

theorem peek_reads :
    Reads tokens (Known position nodes) Parse.peek
      fun kind => At tokens kind position nodes := by
  intro s sound known
  rw [peek_apply sound]
  exact ⟨sound, known, rfl⟩

theorem peek_again :
    Reads tokens (At tokens kind position nodes) Parse.peek fun found s =>
      kind = found ∧ At tokens kind position nodes s := by
  intro s sound known
  rw [peek_apply sound]
  exact ⟨sound, known.kind_eq.symm, known⟩

theorem tokenAt_reads {place : Nat} (inside : place < tokens.size) :
    Reads tokens before (Parse.tokenAt place) fun _ => before := by
  intro s sound known
  rw [tokenAt_apply inside]
  exact ⟨sound, known⟩

theorem here_reads : Reads tokens before Parse.here fun _ => before := by
  intro s sound known
  have starts : Reads tokens before (return (← Parse.tokenAt s.position).start)
      fun _ => before :=
    (tokenAt_reads sound.inside).bind fun _ => .pure fun _ known => known
  exact starts s sound known

theorem finishBefore_reads : Reads tokens before Parse.finishBefore fun _ => before := by
  intro s sound known
  have inside : s.position - 1 < tokens.size :=
    Nat.lt_of_le_of_lt (Nat.sub_le _ _) sound.inside
  have finishes : Reads tokens before (return (← Parse.tokenAt (s.position - 1)).finish)
      fun _ => before :=
    (tokenAt_reads inside).bind fun _ => .pure fun _ known => known
  exact finishes s sound known

theorem spanFrom_reads {start : Location} :
    Reads tokens before (Parse.spanFrom start) fun _ => before :=
  finishBefore_reads.bind fun _ => .pure fun _ known => known

theorem tokens_reads : Reads tokens before read fun found s => found = tokens ∧ before s :=
  fun _ sound known => ⟨sound, rfl, known⟩

theorem peekNext_reads : Reads tokens before Parse.peekNext fun _ => before :=
  fun _ sound known => ⟨sound, known⟩

/-- The position, behind which there is another token unless the file ends here. -/
theorem position_reads :
    Reads tokens (At tokens kind position nodes) Parse.position fun place s =>
      (position ≤ place ∧ place < tokens.size ∧ (kind ≠ .eof → place + 1 < tokens.size)) ∧
        At tokens kind place nodes s := by
  intro s sound known
  have next : kind ≠ .eof → s.position + 1 < tokens.size := by
    rintro inner
    exact sound.next_inside (known.kind_eq ▸ inner)
  have here : At tokens kind s.position nodes s :=
    ⟨⟨Nat.le_refl _, known.owned⟩, known.kind_eq⟩
  exact ⟨sound, ⟨known.position_le, sound.inside, next⟩, here⟩

theorem position_known :
    Reads tokens (Known position nodes) Parse.position fun place s =>
      (position ≤ place ∧ place < tokens.size) ∧ Known place nodes s :=
  fun _ sound known => ⟨sound, ⟨known.position_le, sound.inside⟩, Nat.le_refl _, known.owned⟩

theorem arenas_reads : Reads tokens before Parse.arenas fun _ => before :=
  fun _ sound known => ⟨sound, known⟩

theorem scopes_yields : Yields tokens position nodes Parse.scopes 0 :=
  fun _ sound known =>
    ⟨sound, known.position_le, Arenas.ownsAll_append.mpr ⟨sound.tags, known.owned⟩⟩

theorem scopes_reads : Reads tokens before Parse.scopes fun _ => before :=
  fun _ sound known => ⟨sound, known⟩

theorem isTypedef_reads {name : String} :
    Reads tokens before (Parse.isTypedef name) fun _ => before :=
  fun _ sound known => ⟨sound, known⟩

theorem at?_reads :
    Reads tokens (Known position nodes) (Parse.at? kind) fun found =>
      bif found then At tokens kind position nodes else Known position nodes := by
  apply peek_reads.bind
  intro current
  refine .pure fun s known => ?_
  cases same : decide (current = kind) with
  | false => exact known.toKnown
  | true =>
      obtain rfl : current = kind := of_decide_eq_true same
      exact known

theorem at?_keeps :
    Reads tokens (Known position nodes) (Parse.at? kind) fun _ => Known position nodes :=
  at?_reads.either (fun _ => At.toKnown) fun _ known => known

/-! ## Moving on -/

theorem moveTo_apply {place : Nat} (inside : place < tokens.size) (s : State) :
    Parse.moveTo place tokens s = .ok () { s with position := place } := by
  change (if place < tokens.size then _ else _ : Parse Unit) tokens s = _
  rw [if_pos inside]
  rfl

theorem moveTo_reads {place : Nat} (inside : place < tokens.size) :
    Reads tokens (Known position nodes) (Parse.moveTo place) fun _ => Known place nodes := by
  intro s sound known
  rw [moveTo_apply inside]
  exact ⟨{ sound with inside }, Nat.le_refl _, known.owned⟩

theorem advance_apply {s : State} (sound : Sound tokens s)
    (inner : tokens.kind s.position ≠ .eof) :
    Parse.advance tokens s = .ok () { s with position := s.position + 1 } := by
  rw [Parse.advance, bind_apply, peek_apply sound]
  change (if tokens.kind s.position ≠ .eof then _ else _ : Parse Unit) tokens s = _
  rw [if_pos inner]
  exact moveTo_apply (sound.next_inside inner) s

theorem advance_end {s : State} (sound : Sound tokens s)
    (last : tokens.kind s.position = .eof) :
    Parse.advance tokens s = .ok () s := by
  rw [Parse.advance, bind_apply, peek_apply sound]
  change (if tokens.kind s.position ≠ .eof then _ else _ : Parse Unit) tokens s = _
  rw [if_neg (not_not_intro last)]
  rfl

/-- A token that is not the end of the file is consumed. -/
theorem advance_reads (inner : kind ≠ .eof) :
    Reads tokens (At tokens kind position nodes) Parse.advance
      fun _ => Known (position + 1) nodes := by
  intro s sound known
  have inner : tokens.kind s.position ≠ .eof := known.kind_eq ▸ inner
  rw [advance_apply sound inner]
  have inside : s.position + 1 < tokens.size := sound.next_inside inner
  exact ⟨{ sound with inside }, Nat.succ_le_succ known.position_le, known.owned⟩

/-- At the end of the file nothing is consumed. -/
theorem advance_keeps :
    Reads tokens (Known position nodes) Parse.advance fun _ => Known position nodes := by
  intro s sound known
  by_cases last : tokens.kind s.position = .eof
  · rw [advance_end sound last]
    exact ⟨sound, known⟩
  · have at_ : At tokens (tokens.kind s.position) position nodes s := ⟨known, rfl⟩
    exact (advance_reads last s sound at_).mono fun _ _ _ moved =>
      moved.mono (Nat.le_succ _) (List.Subset.refl _)

theorem accept_reads (inner : kind ≠ .eof) :
    Reads tokens (Known position nodes) (Parse.accept kind) fun taken =>
      bif taken then Known (position + 1) nodes else Known position nodes := by
  apply peek_reads.bind
  intro current
  split
  · next same =>
      subst same
      exact (advance_reads inner).bind fun _ => .pure fun _ known => known
  · exact .pure fun _ known => known.toKnown

theorem acceptMark_reads {mark : Punctuator} :
    Reads tokens (Known position nodes) (Parse.acceptMark mark) fun taken =>
      bif taken then Known (position + 1) nodes else Known position nodes :=
  accept_reads (by simp)

theorem accept_keeps (inner : kind ≠ .eof) :
    Reads tokens (Known position nodes) (Parse.accept kind) fun _ => Known position nodes :=
  (accept_reads inner).either
    (fun _ known => known.mono (Nat.le_succ _) (List.Subset.refl _)) fun _ known => known

theorem expect_reads (inner : kind ≠ .eof) {context : String} :
    Reads tokens (Known position nodes) (Parse.expect kind context)
      fun _ => Known (position + 1) nodes := by
  apply peek_reads.bind
  intro found
  split
  · next same =>
      subst same
      exact advance_reads inner
  · exact .fail rfl

theorem expectMark_reads {mark : Punctuator} {context : String} :
    Reads tokens (Known position nodes) (Parse.expectMark mark context)
      fun _ => Known (position + 1) nodes :=
  expect_reads (by simp)

theorem identifier_yields : Yields tokens position nodes Parse.identifier 1 := by
  apply peek_reads.bind
  intro found
  split
  · exact (advance_reads (by simp)).bind fun _ => .pure fun _ known => known
  · exact .fail rfl

theorem identifier?_reads :
    Reads tokens (Known position nodes) Parse.identifier? fun _ => Known position nodes := by
  apply peek_reads.bind
  intro found
  split
  · exact (advance_reads (by simp)).bind fun _ => .pure fun _ known =>
      known.mono (Nat.le_succ _) (List.Subset.refl _)
  · exact .pure fun _ known => known.toKnown

/-! ## Nodes -/

theorem add_yields {ι : Type} [Refers ι] {insert : Arenas → ι × Arenas} {brought : List NodeRef}
    (inserts : Arenas.Inserts insert brought)
    (tops : ∀ a : Arenas, a.Tops brought (insert a).2) (inside : brought ⊆ nodes) :
    Yields tokens position nodes (Parse.add insert) 0 := by
  intro s sound known
  have takes := inserts.takes s.arenas
  have broughtOwned : s.arenas.OwnsAll brought := known.owned.subset inside
  have closed := takes.closed sound.closed broughtOwned
  have ranked := sound.ranked.top sound.closed broughtOwned (tops s.arenas)
  have owned := Arenas.ownsAll_append.mpr
    ⟨inserts.owned s.arenas, known.owned.mono takes.grows⟩
  exact ⟨{ sound with closed, ranked, tags := sound.tags.mono takes.grows },
    known.position_le, owned⟩

theorem addDecl_yields {decl : Decl} (inside : references decl ⊆ nodes) :
    Yields tokens position nodes (Parse.addDecl decl) 0 :=
  add_yields (Arenas.addDecl_inserts decl) (·.addDecl_tops decl) inside

theorem addType_yields {type : TypeNode} (inside : references type ⊆ nodes) :
    Yields tokens position nodes (Parse.addType type) 0 :=
  add_yields (Arenas.addType_inserts type) (·.addType_tops type) inside

theorem addExpr_yields {form : Expr.Form} {span : Span} (inside : form.references ⊆ nodes) :
    Yields tokens position nodes (Parse.addExpr form span) 0 :=
  add_yields (Arenas.addExpr_inserts { form, span }) (·.addExpr_tops { form, span })
    (by simpa using inside)

theorem addStmt_yields {stmt : Stmt} (inside : references stmt ⊆ nodes) :
    Yields tokens position nodes (Parse.addStmt stmt) 0 :=
  add_yields (Arenas.addStmt_inserts stmt) (·.addStmt_tops stmt) inside

theorem addInit_yields {init : Init} (inside : references init ⊆ nodes) :
    Yields tokens position nodes (Parse.addInit init) 0 :=
  add_yields (Arenas.addInit_inserts init) (·.addInit_tops init) inside

theorem addLabel_yields {label : Label} (inside : references label ⊆ nodes) :
    Yields tokens position nodes (Parse.addLabel label) 0 :=
  add_yields (Arenas.addLabel_inserts label) (·.addLabel_tops label) inside

/-- A node that is known to be owned is found. -/
theorem present_reads {node : NodeRef} {find : Arenas → Option α}
    (finds : ∀ a, a.owns node = true → ∃ value, find a = some value)
    (member : node ∈ nodes) :
    Reads tokens (Known position nodes) (do Parse.present node (find (← Parse.arenas)))
      fun value s => find s.arenas = some value ∧ Known position nodes s := by
  intro s sound known
  obtain ⟨value, found⟩ := finds s.arenas (known.owned node member)
  have looked : (do Parse.present node (find (← Parse.arenas)) : Parse α) tokens s =
      .ok value s := by
    change Parse.present node (find s.arenas) tokens s = _
    rw [found]
    rfl
  rw [looked]
  exact ⟨sound, found, known⟩

theorem declNode_reads {id : DeclId} (member : .decl id ∈ nodes) :
    Reads tokens (Known position nodes) (Parse.declNode id) fun _ => Known position nodes := by
  have finds : ∀ a : Arenas, a.owns (.decl id) = true → ∃ decl, a.decl? id = some decl :=
    fun _ owned => ⟨_, Array.getElem?_eq_getElem (of_decide_eq_true owned)⟩
  exact (present_reads finds member).weaken (fun _ known => known) fun _ _ _ => And.right

theorem typeNode_finds {id : TypeId} (member : .type id ∈ nodes) :
    Reads tokens (Known position nodes) (Parse.typeNode id) fun type s =>
      s.arenas.type? id = some type ∧ Known position (references type ++ nodes) s := by
  have finds : ∀ a : Arenas, a.owns (.type id) = true → ∃ type, a.type? id = some type :=
    fun _ owned => ⟨_, Array.getElem?_eq_getElem (of_decide_eq_true owned)⟩
  refine (present_reads finds member).weaken (fun _ known => known) ?_
  rintro type s sound ⟨found, known⟩
  have inside := Arenas.OwnsAll.subset sound.closed (Arenas.references_subset_of_type? found)
  exact ⟨found, known.position_le, Arenas.ownsAll_append.mpr ⟨inside, known.owned⟩⟩

theorem typeNode_yields {id : TypeId} (member : .type id ∈ nodes) :
    Yields tokens position nodes (Parse.typeNode id) 0 :=
  (typeNode_finds member).weaken (fun _ known => known) fun _ _ _ => And.right

theorem exprNode_reads {id : ExprId} (member : .expr id ∈ nodes) :
    Reads tokens (Known position nodes) (Parse.exprNode id) fun _ => Known position nodes := by
  have finds : ∀ a : Arenas, a.owns (.expr id) = true → ∃ expr, a.expr? id = some expr :=
    fun _ owned => ⟨_, Array.getElem?_eq_getElem (of_decide_eq_true owned)⟩
  exact (present_reads finds member).weaken (fun _ known => known) fun _ _ _ => And.right

theorem declName_reads {id : DeclId} (member : .decl id ∈ nodes) :
    Reads tokens (Known position nodes) (Parse.declName id) fun _ => Known position nodes :=
  (declNode_reads member).bind fun _ => .pure fun _ known => known

theorem declSpan_reads {id : DeclId} (member : .decl id ∈ nodes) :
    Reads tokens (Known position nodes) (Parse.declSpan id) fun _ => Known position nodes :=
  (declNode_reads member).bind fun _ => .pure fun _ known => known

theorem exprSpan_reads {id : ExprId} (member : .expr id ∈ nodes) :
    Reads tokens (Known position nodes) (Parse.exprSpan id) fun _ => Known position nodes :=
  (exprNode_reads member).bind fun _ => .pure fun _ known => known

/-- What does not depend on the log. -/
theorem note_reads {entry : Entry}
    (blind : ∀ s, before s → before { s with log := entry :: s.log }) :
    Reads tokens before (Parse.note entry) fun _ => before :=
  fun s sound known => ⟨{ sound with }, blind s known⟩

theorem modifyArenas_reads {change : Arenas → Arenas} {brought : List NodeRef}
    {fact : State → Prop} (takes : ∀ a, Arenas.Takes a brought (change a))
    (tops : ∀ s, fact s → s.arenas.Tops brought (change s.arenas)) (inside : brought ⊆ nodes) :
    Reads tokens (fun s => fact s ∧ Known position nodes s) (Parse.modifyArenas change)
      fun _ => Known position nodes := by
  rintro s sound ⟨holds, known⟩
  have takes := takes s.arenas
  have broughtOwned : s.arenas.OwnsAll brought := known.owned.subset inside
  have closed := takes.closed sound.closed broughtOwned
  have ranked := sound.ranked.top sound.closed broughtOwned (tops s holds)
  exact ⟨{ sound with closed, ranked, tags := sound.tags.mono takes.grows },
    known.position_le, known.owned.mono takes.grows⟩

/-- Only a type that is known to be tagged is completed. -/
theorem completeType_reads {id : TypeId} {decls : List DeclId} {kind : TypeKind}
    (tagged : kind.isTagged = true) (member : .type id ∈ nodes)
    (inside : references decls ⊆ nodes) :
    Reads tokens (fun s => s.typeKind? id = some kind ∧ Known position nodes s)
      (Parse.completeType id decls) fun _ => Known position nodes := by
  apply ((typeNode_yields member).keepKind .typeNode).bind
  intro type
  have brought : references decls ⊆ references type ++ nodes :=
    List.Subset.trans inside (List.subset_append_right _ _)
  have tops : ∀ s : State, s.typeKind? id = some kind →
      s.arenas.Tops (references decls) (s.arenas.completeType id decls) := by
    intro s known
    obtain ⟨type, found, rfl⟩ := Option.map_eq_some_iff.mp known
    exact Arenas.completeType_tops found tagged decls
  refine (note_reads fun _ ⟨kept, known⟩ => ⟨kept, { known with }⟩).bind fun _ => ?_
  refine (modifyArenas_reads (fun a => a.completeType_takes id decls) tops brought).weaken
    (fun _ known => known) fun _ _ _ known => ?_
  exact known.mono (Nat.le_refl _) (List.subset_append_right _ _)

theorem modifyComments_reads {id : DeclId} {change : Comments → Comments}
    (member : .decl id ∈ nodes) :
    Reads tokens (Known position nodes) (Parse.modifyComments id change)
      fun _ => Known position nodes := by
  refine (declNode_reads member).bind fun _ => ?_
  have tops : ∀ s : State, True →
      s.arenas.Tops [] (s.arenas.modifyComments id change) :=
    fun s _ => s.arenas.modifyComments_tops id change
  exact (modifyArenas_reads (fun a => a.modifyComments_takes id change) tops
    (List.nil_subset _)).weaken (fun _ known => ⟨trivial, known⟩) fun _ _ _ known => known

/-! ## Scopes -/

theorem modifyScopes_reads {change : Scopes → Scopes} (brought : List NodeRef)
    (binds : ∀ scopes, references (change scopes) ⊆ brought ++ references scopes)
    (inside : brought ⊆ nodes) :
    Reads tokens (Known position nodes) (Parse.modifyScopes change)
      fun _ => Known position nodes := by
  intro s sound known
  have before : s.arenas.OwnsAll (brought ++ references s.scopes) :=
    Arenas.ownsAll_append.mpr ⟨known.owned.subset inside, sound.tags⟩
  exact ⟨{ sound with tags := before.subset (binds s.scopes) }, known.position_le, known.owned⟩

theorem Scopes.bindName_references (scopes : Scopes) (name : String) (kind : NameKind) :
    references (scopes.bindName name kind) ⊆ references scopes := by
  unfold Scopes.bindName
  split
  · exact List.Subset.refl _
  · cases scopes <;> exact List.Subset.refl _

theorem Scopes.bindTag_references (scopes : Scopes) (tag : String) (type : TypeId) :
    references (scopes.bindTag tag type) ⊆ [.type type] ++ references scopes := by
  cases scopes with
  | nil => exact List.nil_subset _
  | cons inner outer => simp [Scopes.bindTag, Scopes.modifyInner]

theorem bindName_reads {name : String} {nameKind : NameKind} :
    Reads tokens (Known position nodes) (Parse.bindName name nameKind)
      fun _ => Known position nodes := by
  refine arenas_reads.bind fun a => (note_reads fun _ known => { known with }).bind fun _ => ?_
  exact modifyScopes_reads [] (fun scopes => scopes.bindName_references name nameKind)
    (List.nil_subset _)

theorem bindTag_reads {tag : String} {type : TypeId} (member : .type type ∈ nodes) :
    Reads tokens (Known position nodes) (Parse.bindTag tag type)
      fun _ => Known position nodes :=
  modifyScopes_reads [.type type] (fun scopes => scopes.bindTag_references tag type)
    (by simpa using member)

theorem lookup_references {tags : List (String × TypeId)} {tag : String} {type : TypeId}
    (found : tags.lookup tag = some type) : .type type ∈ references tags := by
  obtain ⟨before, after, rfl, _⟩ := List.lookup_eq_some_iff.mp found
  simp

theorem Scopes.findTag?_references {scopes : Scopes} {tag : String} {type : TypeId}
    (found : scopes.findTag? tag = some type) : .type type ∈ references scopes := by
  obtain ⟨scope, member, found⟩ := List.exists_of_findSome?_eq_some found
  exact references_subset_of_mem member (lookup_references found)

theorem Scopes.innerTag?_references {scopes : Scopes} {tag : String} {type : TypeId}
    (found : scopes.innerTag? tag = some type) : .type type ∈ references scopes := by
  obtain ⟨scope, inner, found⟩ := Option.bind_eq_some_iff.mp found
  exact references_subset_of_mem (List.mem_of_mem_head? inner) (lookup_references found)

/-- A scope of its own is empty at first, and dropping it leaves tags that were sound. -/
theorem inScope_yields [Refers α] {body : Parse α}
    (yields : Yields tokens position nodes body consumed) :
    Yields tokens position nodes (Parse.inScope body) consumed := by
  intro s sound known
  have reached := yields { s with scopes := {} :: s.scopes } { sound with } { known with }
  unfold Parse.inScope
  cases outcome : body tokens { s with scopes := {} :: s.scopes } with
  | ok value s' =>
      rw [outcome] at reached
      obtain ⟨sound, known⟩ := reached
      have tags : s'.arenas.OwnsAll (references s'.scopes.tail) :=
        sound.tags.subset (references_subset fun _ => List.mem_of_mem_tail)
      exact ⟨{ sound with tags }, { known with }⟩
  | error cause s' =>
      rw [outcome] at reached
      exact reached

end SyntaxGraph.Grammar

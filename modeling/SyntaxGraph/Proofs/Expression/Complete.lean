import SyntaxGraph.Proofs.Expression.Level

/-!
# A canonical tree is read back from its tokens

By induction on why a tree is canonical, it is read at its own level and so at each looser
one.  The bound on the nesting is enough because what stands inside a tree is shorter than
the tree.
-/

set_option autoImplicit false

namespace SyntaxGraph.Grammar

open Token (Kind Punctuator)
open SyntaxGraph.Expr (Tree)
open SyntaxGraph.Expr.Tree (separated behindCommas separated_cons namesOf)

variable {tokens : Tokens} {s : State} {kind : Kind} {rest : List Kind} {depth : Nat}
  {tree : Tree}

/-! ## Primary expressions -/

theorem form?_of_expr? {a : Arenas} {id : ExprId} {form : Expr.Form} {span : Span}
    (found : a.expr? id = some { form, span }) : a.form? id = some form := by
  rw [Arenas.form?, found]
  rfl

theorem Parses.spannedExpr {form : Expr.Form} {start : Location} {after : ExprId → State → Prop}
    (ahead : tokens.ahead s.position = kind :: rest)
    (holds : ∀ id s', Reaches tokens s (kind :: rest) s' → s'.arenas.form? id = some form →
      after id s') :
    Parses tokens s (do Parse.addExpr form (← Parse.spanFrom start)) (kind :: rest) after :=
  .span (inside_of_ahead ahead) fun _ => .addExpr ahead fun id s' reached found =>
    holds id s' reached (form?_of_expr? found)

/-- One token makes a node by itself. -/
theorem Parses.atom {first : Kind} {form : Expr.Form} {start : Location}
    {after : ExprId → State → Prop} (ahead : tokens.ahead s.position = first :: kind :: rest)
    (inner : first ≠ .eof)
    (holds : ∀ id s', s'.arenas.form? id = some form → after id s') :
    Parses tokens s (do
      Parse.advance
      Parse.addExpr form (← Parse.spanFrom start)) (kind :: rest) after :=
  .advance ahead inner (List.cons_ne_nil _ _) fun moved =>
    .spannedExpr moved fun id s' _ node => holds id s' node

theorem name_isRead (text : String) : IsRead tokens (.name text) := by
  refine .of_level .name ?_ (by simp [Tree.level]) (by simp [Tree.level])
  intro depth s kind rest facing stops
  refine .here facing.inside fun start => .peek facing.ahead ?_
  exact .atom facing.ahead (by simp) fun id s' node => .name node

theorem number_isRead (text : String) : IsRead tokens (.number text) := by
  refine .of_level .number ?_ (by simp [Tree.level]) (by simp [Tree.level])
  intro depth s kind rest facing stops
  refine .here facing.inside fun start => .peek facing.ahead ?_
  exact .atom facing.ahead (by simp) fun id s' node => .number node

theorem character_isRead (text : String) : IsRead tokens (.character text) := by
  refine .of_level .character ?_ (by simp [Tree.level]) (by simp [Tree.level])
  intro depth s kind rest facing stops
  refine .here facing.inside fun start => .peek facing.ahead ?_
  exact .atom facing.ahead (by simp) fun id s' node => .character node

theorem stringPieces_parse {pieces : List String}
    (ahead : tokens.ahead s.position = pieces.map Kind.string ++ kind :: rest)
    (stops : Stops 16 kind) :
    Parses tokens s (Parse.many stringPiece?) (kind :: rest) fun found _ => found = pieces := by
  induction pieces generalizing s with
  | nil =>
      refine .manyStop (.peek ahead ?_)
      have other : continuation kind ≠ some 16 := fun same => absurd (stops 16 same) (by omega)
      split
      · exact absurd rfl other
      · exact .pure ahead ⟨rfl, rfl⟩
  | cons piece pieces ih =>
      have one : Parses tokens s stringPiece? (pieces.map Kind.string ++ kind :: rest)
          fun next _ => ∃ found, next = some found ∧ found = piece :=
        .peek ahead (.advance ahead (by simp) (by simp) fun moved =>
          .pure moved ⟨piece, rfl, rfl⟩)
      refine .manyNext ahead (Nat.lt_succ_self _) one fun found middle reached same => ?_
      subst same
      exact (ih reached.ahead).weaken fun others s' _ equal => by rw [equal]

theorem string_isRead {pieces : List String} (some : pieces ≠ []) :
    IsRead tokens (.string pieces) := by
  refine .of_level (.string some) ?_ (by simp [Tree.level]) (by simp [Tree.level])
  intro depth s kind rest facing stops
  have ahead : tokens.ahead s.position = pieces.map Kind.string ++ kind :: rest := facing.ahead
  refine .here facing.inside fun start => ?_
  have collected := stringPieces_parse ahead stops
  obtain ⟨piece, others, rfl⟩ := List.exists_cons_of_ne_nil some
  refine .peek ahead (.bind collected fun found middle reached same => ?_)
  subst same
  exact .spannedExpr reached.ahead fun id s' _ node => .string node

theorem paren_isRead {inner : Tree} (canonical : inner.Canonical) (read : IsRead tokens inner) :
    IsRead tokens (.unary .paren inner) := by
  refine .of_level (.unary canonical (Nat.zero_le _)) ?_ (by simp [Tree.level, UnaryOp.level])
    (by simp [Tree.level, UnaryOp.level])
  intro depth s kind rest facing stops
  obtain ⟨less, rfl⟩ := facing.deeper (by simp [Tree.kinds])
  have ahead : tokens.ahead s.position = .punctuator .parenOpen ::
      (inner.kinds ++ .punctuator .parenClose :: kind :: rest) := by
    rw [facing.ahead, Tree.kinds, List.cons_append, List.append_assoc]
    rfl
  refine .here facing.inside fun start => .peek ahead ?_
  refine .advance ahead (by simp) (by simp) fun moved => ?_
  have inside : Facing tokens less { s with position := s.position + 1 } inner
      (.punctuator .parenClose) (kind :: rest) := by
    have fits := facing.fits
    rw [Tree.kinds, List.length_cons, List.length_append] at fits
    exact ⟨by omega, facing.plain, moved⟩
  refine .bind (read.reads 0 (Nat.zero_le _) less _ _ _ inside (stops_mark rfl))
    fun id middle reached stands => ?_
  refine .expect reached.ahead (by simp) (by simp) fun behind => .spannedExpr behind ?_
  exact fun id s' further node => .unary node (stands.mono further.grows.exprs)

/-! ## Suffixes -/

/-- The round that takes a suffix behind `inner` makes `tree` of it. -/
def TakesSuffix (tokens : Tokens) (inner : Tree) (suffix : List Kind) (tree : Tree) : Prop :=
  ∀ depth s kind rest start id, (inner.kinds ++ suffix).length ≤ depth →
    (∀ name ∈ tree.names, s.scopes.isTypedef name = false) →
    tokens.ahead s.position = suffix ++ kind :: rest → s.arenas.Stands id inner →
    Parses tokens s (suffixRound (Rules.nested depth) start id) (kind :: rest) fun next s' =>
      ∃ found, next = some found ∧ s'.arenas.Stands found tree

theorem suffix_isRead {inner : Tree} {first : Kind} {more : List Kind}
    (canonical : tree.Canonical) (read : IsRead tokens inner) (tight : 15 ≤ inner.level)
    (level : tree.level = 15) (writes : tree.kinds = inner.kinds ++ first :: more)
    (names : inner.names ⊆ tree.names) (begins : continuation first = some 15)
    (takes : TakesSuffix tokens inner (first :: more) tree) : IsRead tokens tree := by
  have suffixes : SuffixesBehind tokens tree := by
    intro depth s kind rest final after facing stops goes
    have ahead : tokens.ahead s.position = inner.kinds ++ first :: (more ++ kind :: rest) := by
      rw [facing.ahead, writes, List.append_assoc]
      rfl
    have fits := facing.fits
    rw [writes] at fits
    have inside : Facing tokens depth s inner first (more ++ kind :: rest) := by
      rw [List.length_append] at fits
      exact ⟨by omega, fun name member => facing.plain name (names member), ahead⟩
    refine read.suffixes tight depth s first _ final after inside
      (stops_at begins (by omega)) fun id middle start reached stands => ?_
    have shorter : (kind :: rest).length < (first :: (more ++ kind :: rest)).length := by
      simp only [List.length_cons, List.length_append]
      omega
    refine .round reached.ahead shorter (takes depth middle kind rest start id fits
      (reached.plain facing.plain) reached.ahead stands) fun found last further stands => ?_
    exact goes found last start (reached.trans further) stands
  refine .of_level canonical ?_ (fun _ le => absurd level (by omega)) fun _ => suffixes
  rw [level]
  exact readsAt_of_suffixes suffixes

theorem Parses.offeredExpr {form : Expr.Form} {start : Location}
    {after : Option ExprId → State → Prop} (ahead : tokens.ahead s.position = kind :: rest)
    (holds : ∀ id s', Reaches tokens s (kind :: rest) s' → s'.arenas.form? id = some form →
      after (some id) s') :
    Parses tokens s (do some <$> Parse.addExpr form (← Parse.spanFrom start)) (kind :: rest)
      after :=
  .span (inside_of_ahead ahead) fun _ => .map (.addExpr ahead fun id s' reached found =>
    holds id s' reached (form?_of_expr? found))

theorem member_isRead {op : MemberOp} {object : Tree} {field : String}
    (canonical : object.Canonical) (read : IsRead tokens object) (tight : 15 ≤ object.level) :
    IsRead tokens (.member op object field) := by
  refine suffix_isRead (.member canonical tight) read tight rfl rfl (List.Subset.refl _)
    (by cases op <;> rfl) ?_
  intro depth s kind rest start id fits plain ahead stands
  refine .peek ahead ?_
  cases op
  all_goals
    refine .advance ahead (by simp) (by simp) fun moved => ?_
    refine .identifier moved (by simp) fun behind => .offeredExpr behind ?_
    exact fun found s' further node => ⟨found, rfl, .member node (stands.mono further.grows.exprs)⟩

theorem increment_isRead {op : UnaryOp} {operand : Tree} (level : op.level = 15)
    (canonical : operand.Canonical) (read : IsRead tokens operand) (tight : 15 ≤ operand.level) :
    IsRead tokens (.unary op operand) := by
  cases op
  case postInc | postDec =>
    refine suffix_isRead (.unary canonical tight) read tight rfl rfl (List.Subset.refl _) rfl ?_
    intro depth s kind rest start id fits plain ahead stands
    refine .peek ahead (.advance ahead (by simp) (by simp) fun moved => .offeredExpr moved ?_)
    exact fun found s' further node => ⟨found, rfl, .unary node (stands.mono further.grows.exprs)⟩
  all_goals cases level

theorem index_isRead {array index : Tree} (canonical : array.Canonical)
    (other : index.Canonical) (read : IsRead tokens array) (inner : IsRead tokens index)
    (tight : 15 ≤ array.level) : IsRead tokens (.binary .index array index) := by
  refine suffix_isRead (.binary canonical other tight (Nat.zero_le _)) read tight rfl rfl
    (List.subset_append_left _ _) rfl ?_
  intro depth s kind rest start id fits plain ahead stands
  rw [List.length_append, List.length_cons, List.length_append] at fits
  obtain ⟨less, rfl⟩ : ∃ less, depth = less + 1 := ⟨depth - 1, by omega⟩
  have ahead : tokens.ahead s.position = .punctuator .bracketOpen ::
      (index.kinds ++ .punctuator .bracketClose :: kind :: rest) := by
    rw [ahead, List.cons_append, List.append_assoc]
    rfl
  refine .peek ahead (.advance ahead (by simp) (by simp) fun moved => ?_)
  have inside : Facing tokens less { s with position := s.position + 1 } index
      (.punctuator .bracketClose) (kind :: rest) :=
    ⟨by omega, fun name member => plain name (List.mem_append_right _ member), moved⟩
  refine .bind (inner.reads 0 (Nat.zero_le _) less _ _ _ inside (stops_mark rfl))
    fun second middle reached besides => ?_
  refine .expect reached.ahead (by simp) (by simp) fun behind => .offeredExpr behind ?_
  intro found s' further node
  have keeps := (reached.grows.trans further.grows).exprs
  exact ⟨found, rfl, .binary node (stands.mono keeps) (besides.mono further.grows.exprs)⟩

/-! ## Lists -/

/-- Behind a tree of a list comes a comma or what comes behind the list. -/
theorem behindCommas_stops (trees : List Tree) (rest : List Kind) (stops : Stops 0 kind) :
    ∃ next others, behindCommas trees ++ kind :: rest = next :: others ∧ Stops 1 next := by
  cases trees with
  | nil => exact ⟨kind, rest, rfl, stops.mono (by omega)⟩
  | cons tree trees => exact ⟨_, _, rfl, stops_at rfl (by omega)⟩

theorem behindCommas_parse {trees : List Tree} (each : ∀ tree ∈ trees, ReadsAt tokens tree 1)
    (fits : (behindCommas trees).length ≤ depth)
    (plain : ∀ name ∈ namesOf trees, s.scopes.isTypedef name = false)
    (ahead : tokens.ahead s.position = behindCommas trees ++ kind :: rest)
    (stops : Stops 0 kind) :
    Parses tokens s (Parse.many (do
        if ← Parse.acceptMark .comma then some <$> assignment (Rules.nested depth)
        else return none)) (kind :: rest) fun ids s' =>
      List.Forall₂ s'.arenas.Stands ids trees := by
  induction trees generalizing s with
  | nil =>
      have other : kind ≠ .punctuator .comma := by
        rintro rfl
        exact absurd (stops 0 rfl) (by omega)
      exact .manyStop (.decline ahead other (.pure ahead ⟨rfl, .nil⟩))
  | cons tree trees ih =>
      rw [behindCommas, List.length_cons, List.length_append] at fits
      have ahead : tokens.ahead s.position = .punctuator .comma ::
          (tree.kinds ++ (behindCommas trees ++ kind :: rest)) := by
        rw [ahead, behindCommas, List.cons_append, List.append_assoc]
      obtain ⟨next, others, same, ends⟩ := behindCommas_stops trees rest stops
      rw [same] at ahead
      have one : Parses tokens s (do
          if ← Parse.acceptMark .comma then some <$> assignment (Rules.nested depth)
          else return none) (next :: others) fun found middle =>
            ∃ id, found = some id ∧ middle.arenas.Stands id tree := by
        refine .accept ahead (by simp) (by simp) fun moved => .map ?_
        have inside : Facing tokens depth { s with position := s.position + 1 } tree next others :=
          ⟨by omega, fun name member => plain name (List.mem_append_left _ member), moved⟩
        exact (each tree (by simp) depth _ _ _ inside ends).weaken
          fun id middle _ stands => ⟨id, rfl, stands⟩
      have shorter : (next :: others).length <
          (Kind.punctuator .comma :: (tree.kinds ++ next :: others)).length := by
        simp only [List.length_cons, List.length_append]
        omega
      refine .manyNext ahead shorter one fun id middle reached stands => ?_
      have behind : ∀ name ∈ namesOf trees, middle.scopes.isTypedef name = false :=
        reached.plain fun name member => plain name (List.mem_append_right _ member)
      refine (ih (fun tree member => each tree (List.mem_cons_of_mem _ member)) (by omega) behind
        (reached.ahead.trans same.symm)).weaken fun ids s' further all => ?_
      exact .cons (stands.mono further.grows.exprs) all

theorem separated_parse {tree : Tree} {trees : List Tree}
    (each : ∀ item ∈ tree :: trees, ReadsAt tokens item 1)
    (fits : (separated (tree :: trees)).length ≤ depth)
    (plain : ∀ name ∈ namesOf (tree :: trees), s.scopes.isTypedef name = false)
    (ahead : tokens.ahead s.position = separated (tree :: trees) ++ kind :: rest)
    (stops : Stops 0 kind) :
    Parses tokens s (Parse.separated (assignment (Rules.nested depth))) (kind :: rest)
      fun ids s' => List.Forall₂ s'.arenas.Stands ids (tree :: trees) := by
  rw [separated_cons, List.length_append] at fits
  obtain ⟨next, others, same, ends⟩ := behindCommas_stops trees rest stops
  have ahead : tokens.ahead s.position = tree.kinds ++ next :: others := by
    rw [ahead, separated_cons, List.append_assoc, same]
  have inside : Facing tokens depth s tree next others :=
    ⟨by omega, fun name member => plain name (List.mem_append_left _ member), ahead⟩
  refine .bind (each tree (by simp) depth _ _ _ inside ends) fun id middle reached stands => ?_
  have behind : ∀ name ∈ namesOf trees, middle.scopes.isTypedef name = false :=
    reached.plain fun name member => plain name (List.mem_append_right _ member)
  refine .bind (behindCommas_parse (fun tree member => each tree (List.mem_cons_of_mem _ member))
    (by omega) behind (reached.ahead.trans same.symm) stops) fun ids last further all => ?_
  exact .pure further.ahead (.cons (stands.mono further.grows.exprs) all)

theorem argumentList_parse {arguments : List Tree}
    (canonical : ∀ argument ∈ arguments, argument.Canonical)
    (each : ∀ argument ∈ arguments, ReadsAt tokens argument 1)
    (fits : (separated arguments).length ≤ depth)
    (plain : ∀ name ∈ namesOf arguments, s.scopes.isTypedef name = false)
    (ahead : tokens.ahead s.position = separated arguments ++ .punctuator .parenClose :: rest) :
    Parses tokens s (argumentList (Rules.nested (depth + 1))) (.punctuator .parenClose :: rest)
      fun ids s' => List.Forall₂ s'.arenas.Stands ids arguments := by
  cases arguments with
  | nil => exact .of_run (at?_run ahead _) (.pure ahead .nil)
  | cons first others =>
      obtain ⟨next, more, same, begins⟩ := canonical_leads (canonical first (by simp))
        fun name member => plain name (List.mem_append_left _ member)
      have opens : tokens.ahead s.position = next :: (more ++ (behindCommas others ++
          .punctuator .parenClose :: rest)) := by
        rw [ahead, separated_cons, same, List.append_assoc, List.cons_append]
      refine .of_run (at?_run opens _) ?_
      rw [decide_eq_false begins.noClose]
      exact separated_parse each fits plain ahead (stops_mark rfl)

theorem call_isRead {callee : Tree} {arguments : List Tree} (canonical : callee.Canonical)
    (others : ∀ argument ∈ arguments, argument.Canonical)
    (levels : ∀ argument ∈ arguments, 1 ≤ argument.level) (read : IsRead tokens callee)
    (each : ∀ argument ∈ arguments, IsRead tokens argument) (tight : 15 ≤ callee.level) :
    IsRead tokens (.call callee arguments) := by
  refine suffix_isRead (.call canonical tight others levels) read tight rfl rfl
    (List.subset_append_left _ _) rfl ?_
  intro depth s kind rest start id fits plain ahead stands
  rw [List.length_append, List.length_cons, List.length_append] at fits
  obtain ⟨less, rfl⟩ : ∃ less, depth = less + 1 := ⟨depth - 1, by omega⟩
  have ahead : tokens.ahead s.position = .punctuator .parenOpen ::
      (separated arguments ++ .punctuator .parenClose :: kind :: rest) := by
    rw [ahead, List.cons_append, List.append_assoc]
    rfl
  refine .peek ahead (.advance ahead (by simp) (by simp) fun moved => ?_)
  have listed : Parses tokens { s with position := s.position + 1 }
      (argumentList (Rules.nested (less + 1))) (.punctuator .parenClose :: kind :: rest)
      fun ids s' => List.Forall₂ s'.arenas.Stands ids arguments :=
    argumentList_parse others
      (fun argument member => (each argument member).reads 1 (levels argument member))
      (by omega) (fun name member => plain name (List.mem_append_right _ member)) moved
  have taken : Parses tokens { s with position := s.position + 1 }
      (Grammar.arguments (Rules.nested (less + 1))) (kind :: rest) fun ids s' =>
        List.Forall₂ s'.arenas.Stands ids arguments := by
    refine .bind listed fun ids middle reached all => ?_
    exact .expect reached.ahead (by simp) (by simp) fun behind => .pure behind all
  refine .bind taken fun ids middle reached all => .offeredExpr reached.ahead ?_
  intro found s' further node
  have alike := all.imp fun _ _ stands => stands.mono further.grows.exprs
  obtain ⟨length, pairs⟩ := List.forall₂_iff_zip.mp alike
  have keeps := (reached.grows.trans further.grows).exprs
  exact ⟨found, rfl, .call node (stands.mono keeps) length fun pair => pairs⟩

theorem comma_isRead {items : List Tree} (several : 2 ≤ items.length)
    (canonical : ∀ item ∈ items, item.Canonical) (levels : ∀ item ∈ items, 1 ≤ item.level)
    (each : ∀ item ∈ items, IsRead tokens item) : IsRead tokens (.comma items) := by
  refine .of_level (.comma several canonical levels) ?_ (by simp [Tree.level])
    (by simp [Tree.level])
  intro depth s kind rest facing stops
  obtain ⟨first, others, rfl⟩ := List.exists_cons_of_length_pos (Nat.zero_lt_of_lt several)
  refine .here facing.inside fun start => ?_
  refine .bind (separated_parse (fun item member => (each item member).reads 1
    (levels item member)) facing.fits facing.plain facing.ahead stops)
    fun ids middle reached all => ?_
  have length := all.length_eq
  rw [← length] at several
  obtain ⟨one, two, more, rfl⟩ : ∃ one two more, ids = one :: two :: more := by
    rcases ids with _ | ⟨one, _ | ⟨two, more⟩⟩
    · exact absurd several (by simp)
    · exact absurd several (by simp)
    · exact ⟨one, two, more, rfl⟩
  refine .spannedExpr reached.ahead fun id s' further node => ?_
  have alike := all.imp fun _ _ stands => stands.mono further.grows.exprs
  obtain ⟨-, pairs⟩ := List.forall₂_iff_zip.mp alike
  exact .comma node length fun pair => pairs

/-! ## Operators in front of an operand -/

theorem prefix_writes {op : UnaryOp} (level : op.level = 14) :
    op = .sizeofExpr ∨ ∃ mark, op.token = .punctuator mark ∧ prefixOp? mark = some op := by
  cases op
  case paren | postInc | postDec => cases level
  case sizeofExpr => exact .inl rfl
  all_goals exact .inr ⟨_, rfl, rfl⟩

theorem prefixOperand_eq {op : UnaryOp} {mark : Punctuator} (found : prefixOp? mark = some op)
    (less : Nat) : prefixOperand (Rules.nested (less + 1)) op =
      readAt (Rules.nested less) op.operandLevel := by
  cases mark <;> cases found <;> rfl

theorem prefix_isRead {op : UnaryOp} {operand : Tree} (level : op.level = 14)
    (canonical : operand.Canonical) (read : IsRead tokens operand)
    (tight : op.operandLevel ≤ operand.level) : IsRead tokens (.unary op operand) := by
  have own : ReadsAt tokens (.unary op operand) 14 := by
    intro depth s kind rest facing stops
    have written := Tree.kinds_prefix level operand
    obtain ⟨less, rfl⟩ := facing.deeper (by simp [written])
    have ahead : tokens.ahead s.position = op.token :: (operand.kinds ++ kind :: rest) := by
      rw [facing.ahead, written]
      rfl
    have fits := facing.fits
    rw [written, List.length_cons] at fits
    refine .here facing.inside fun start => .peek ahead ?_
    obtain rfl | ⟨mark, same, found⟩ := prefix_writes level
    · refine .advance ahead (by simp [UnaryOp.token]) (by simp) fun moved => ?_
      have inside : Facing tokens less { s with position := s.position + 1 } operand kind rest :=
        ⟨by omega, facing.plain, moved⟩
      refine .of_run (atParenthesizedType_run (inside.leads canonical)) ?_
      refine .bind (read.reads 14 tight less _ _ _ inside stops) fun id middle reached stands => ?_
      refine .spannedExpr reached.ahead fun id s' further node => ?_
      exact .unary node (stands.mono further.grows.exprs)
    · rw [same] at ahead ⊢
      dsimp only
      rw [found]
      refine .advance ahead (by simp) (by simp) fun moved => ?_
      have inside : Facing tokens less { s with position := s.position + 1 } operand kind rest :=
        ⟨by omega, facing.plain, moved⟩
      have ends : Stops op.operandLevel kind := by
        cases mark <;> cases found <;> first | exact stops | exact stops.cast
      have reads := read.reads op.operandLevel tight less _ _ _ inside ends
      rw [← prefixOperand_eq found less] at reads
      refine .bind reads fun id middle reached stands => ?_
      refine .spannedExpr reached.ahead fun id s' further node => ?_
      exact .unary node (stands.mono further.grows.exprs)
  refine .of_level (.unary canonical tight) ?_ ?_ ?_
  · change ReadsAt tokens (.unary op operand) op.level
    rw [level]
    exact own
  · exact fun _ le => absurd level (by change op.level ≤ 12 at le; omega)
  · exact fun same => absurd level (by change op.level = 15 at same; omega)

/-! ## Operators between operands -/

theorem mark_writes {op : BinaryOp} (other : op ≠ .index) : binaryOp? op.mark = some op := by
  cases op
  case index => exact absurd rfl other
  all_goals rfl

theorem level_tier {op : BinaryOp} (loosest : 3 ≤ op.level) (tightest : op.level ≤ 12) :
    op.tier = 13 - op.level ∧ op.leftLevel = op.level ∧ op.rightLevel = op.level + 1 := by
  cases op <;> simp [BinaryOp.level] at loosest tightest <;> exact ⟨rfl, rfl, rfl⟩

theorem joined_parses {op : BinaryOp} {left right : ExprId} {first second : Tree}
    (ahead : tokens.ahead s.position = kind :: rest) (stands : s.arenas.Stands left first)
    (besides : s.arenas.Stands right second) :
    Parses tokens s (joined op left right) (kind :: rest) fun id s' =>
      s'.arenas.Stands id (.binary op first second) := by
  obtain ⟨leftExpr, leftFound⟩ := stands.expr?
  obtain ⟨rightExpr, rightFound⟩ := besides.expr?
  refine .look (exprSpan_run leftFound) fun leftSpan => ?_
  refine .look (exprSpan_run rightFound) fun rightSpan => .addExpr ahead ?_
  intro id s' reached found
  exact .binary (form?_of_expr? found) (stands.mono reached.grows.exprs)
    (besides.mono reached.grows.exprs)

/-- The operands of an operator that stands between them, and what is known of the second one
before the first has been read. -/
theorem Facing.operands {op : BinaryOp} {left right : Tree} (other : op ≠ .index)
    (facing : Facing tokens depth s (.binary op left right) kind rest) :
    Facing tokens depth s left (.punctuator op.mark) (right.kinds ++ kind :: rest) ∧
      right.kinds.length < depth ∧ ∀ name ∈ right.names, s.scopes.isTypedef name = false := by
  have written := Tree.kinds_infix other left right
  have fits := facing.fits
  rw [written, List.length_append, List.length_cons] at fits
  refine ⟨⟨by omega, fun name member => facing.plain name (List.mem_append_left _ member), ?_⟩,
    by omega, fun name member => facing.plain name (List.mem_append_right _ member)⟩
  rw [facing.ahead, written, List.append_assoc]
  rfl

theorem chain_isRead {op : BinaryOp} {left right : Tree} (loosest : 3 ≤ op.level)
    (tightest : op.level ≤ 12) (canonical : left.Canonical) (other : right.Canonical)
    (read : IsRead tokens left) (besides : IsRead tokens right)
    (leftLevel : op.leftLevel ≤ left.level) (rightLevel : op.rightLevel ≤ right.level) :
    IsRead tokens (.binary op left right) := by
  have subscript : op ≠ .index := by
    rintro rfl
    exact absurd tightest (by decide)
  obtain ⟨tier, leftIs, rightIs⟩ := level_tier loosest tightest
  have chains : ChainsAt tokens (.binary op left right) op.level := by
    intro depth s kind rest final after facing stops goes
    obtain ⟨inside, fits, plain⟩ := facing.operands subscript
    have ends : Stops (op.level + 1) (.punctuator op.mark) :=
      stops_at (continuation_mark (mark_writes subscript)) (Nat.lt_succ_self _)
    refine read.chains op.level loosest tightest (leftIs ▸ leftLevel) depth s _ _ final after
      inside ends fun id middle reached stands => ?_
    have one : Parses tokens middle (chainRound (fun op' => op'.tier = 13 - op.level)
        (readAt (Rules.nested depth) (op.level + 1)) id) (kind :: rest) fun next last =>
          ∃ found, next = some found ∧ last.arenas.Stands found (.binary op left right) := by
      refine .of_run (operatorAt_some reached.ahead (mark_writes subscript)
        (decide_eq_true tier)) ?_
      refine .advance reached.ahead (by simp) (by simp) fun moved => ?_
      have behind : Facing tokens depth { middle with position := middle.position + 1 } right
          kind rest := ⟨by omega, reached.plain plain, moved⟩
      refine .bind (besides.reads (op.level + 1) (rightIs ▸ rightLevel) depth _ _ _ behind stops)
        fun other last further standsBeside => .map ?_
      exact (joined_parses further.ahead (stands.mono further.grows.exprs) standsBeside).weaken
        fun found s' _ whole => ⟨found, rfl, whole⟩
    have shorter : (kind :: rest).length <
        (Kind.punctuator op.mark :: (right.kinds ++ kind :: rest)).length := by
      simp only [List.length_cons, List.length_append]
      omega
    exact .round reached.ahead shorter one fun found last further whole =>
      goes found last (reached.trans further) whole
  refine .of_level (.binary canonical other leftLevel rightLevel)
    (readsAt_of_chains loosest tightest chains) (fun _ _ => chains) fun same => ?_
  change op.level = 15 at same
  omega

theorem level_assigns {op : BinaryOp} (level : op.level = 1) :
    op.isAssignment = true ∧ op.leftLevel = 2 ∧ op.rightLevel = 1 := by
  cases op <;> first | exact ⟨rfl, rfl, rfl⟩ | cases level

theorem assignment_isRead {op : BinaryOp} {left right : Tree} (level : op.level = 1)
    (canonical : left.Canonical) (other : right.Canonical)
    (read : IsRead tokens left) (besides : IsRead tokens right)
    (leftLevel : op.leftLevel ≤ left.level) (rightLevel : op.rightLevel ≤ right.level) :
    IsRead tokens (.binary op left right) := by
  have subscript : op ≠ .index := by
    rintro rfl
    cases level
  obtain ⟨assigns, leftIs, rightIs⟩ := level_assigns level
  have own : ReadsAt tokens (.binary op left right) 1 := by
    intro depth s kind rest facing stops
    obtain ⟨inside, fits, plain⟩ := facing.operands subscript
    obtain ⟨less, rfl⟩ : ∃ less, depth = less + 1 := ⟨depth - 1, by omega⟩
    have ends : Stops 2 (.punctuator op.mark) :=
      stops_at (continuation_mark (mark_writes subscript)) (by omega)
    refine .bind (read.reads 2 (leftIs ▸ leftLevel) _ _ _ _ inside ends)
      fun id middle reached stands => ?_
    refine .of_run (operatorAt_some reached.ahead (mark_writes subscript) assigns) ?_
    refine .advance reached.ahead (by simp) (by simp) fun moved => ?_
    have behind : Facing tokens less { middle with position := middle.position + 1 } right
        kind rest := ⟨by omega, reached.plain plain, moved⟩
    refine .bind (besides.reads 1 (rightIs ▸ rightLevel) less _ _ _ behind stops)
      fun other last further standsBeside => ?_
    exact joined_parses further.ahead (stands.mono further.grows.exprs) standsBeside
  refine .of_level (.binary canonical other leftLevel rightLevel) ?_ ?_ ?_
  · change ReadsAt tokens (.binary op left right) op.level
    rw [level]
    exact own
  · exact fun le => absurd level (by change 3 ≤ op.level at le; omega)
  · exact fun same => absurd level (by change op.level = 15 at same; omega)

theorem cond_isRead {condition first second : Tree} (test : condition.Canonical)
    (whenTrue : first.Canonical) (whenFalse : second.Canonical)
    (testLevel : 3 ≤ condition.level) (falseLevel : 2 ≤ second.level)
    (tested : IsRead tokens condition) (yes : IsRead tokens first) (no : IsRead tokens second) :
    IsRead tokens (.cond condition first second) := by
  refine .of_level (.cond test whenTrue whenFalse testLevel falseLevel) ?_ (by simp [Tree.level])
    (by simp [Tree.level])
  intro depth s kind rest facing stops
  obtain ⟨less, rfl⟩ := facing.deeper (by simp [Tree.kinds])
  have ahead : tokens.ahead s.position = condition.kinds ++ .punctuator .question ::
      (first.kinds ++ .punctuator .colon :: (second.kinds ++ kind :: rest)) := by
    rw [facing.ahead, Tree.kinds]
    simp only [List.append_assoc, List.cons_append]
  have fits := facing.fits
  simp only [Tree.kinds, List.length_append, List.length_cons] at fits
  obtain ⟨plainTest, plainTrue, plainFalse⟩ :
      (∀ name ∈ condition.names, s.scopes.isTypedef name = false) ∧
        (∀ name ∈ first.names, s.scopes.isTypedef name = false) ∧
          ∀ name ∈ second.names, s.scopes.isTypedef name = false := by
    have plain := facing.plain
    rwa [Tree.names, List.append_assoc, List.forall_mem_append, List.forall_mem_append] at plain
  have inside : Facing tokens (less + 1) s condition (.punctuator .question) _ :=
    ⟨by omega, plainTest, ahead⟩
  refine .here facing.inside fun start => ?_
  refine .bind (tested.reads 3 testLevel _ _ _ _ inside (stops_at rfl (by omega)))
    fun id middle reached stands => ?_
  refine .accept reached.ahead (by simp) (by simp) fun moved => ?_
  have between : Facing tokens less { middle with position := middle.position + 1 } first
      (.punctuator .colon) (second.kinds ++ kind :: rest) :=
    ⟨by omega, reached.plain plainTrue, moved⟩
  refine .bind (yes.reads 0 (Nat.zero_le _) less _ _ _ between (stops_mark rfl))
    fun one last further standsTrue => ?_
  refine .expect further.ahead (by simp) (by simp) fun moved => ?_
  have behind : Facing tokens less { last with position := last.position + 1 } second
      kind rest := ⟨by omega, further.plain (reached.plain plainFalse), moved⟩
  refine .bind (no.reads 2 falseLevel less _ _ _ behind stops)
    fun other final most standsFalse => ?_
  refine .spannedExpr most.ahead fun found s' added node => ?_
  have laterKeeps := (most.grows.trans added.grows).exprs
  have keeps := (further.grows.trans (most.grows.trans added.grows)).exprs
  exact .cond node (stands.mono keeps) (standsTrue.mono laterKeeps)
    (standsFalse.mono added.grows.exprs)

/-! ## Every canonical tree -/

theorem canonical_isRead (canonical : tree.Canonical) : IsRead tokens tree := by
  induction canonical with
  | name => exact name_isRead _
  | number => exact number_isRead _
  | character => exact character_isRead _
  | string some => exact string_isRead some
  | @unary op operand canonical level read =>
      have levels : op = .paren ∨ op.level = 15 ∨ op.level = 14 := by
        cases op <;> simp [UnaryOp.level]
      obtain rfl | postfixed | prefixed := levels
      · exact paren_isRead canonical read
      · refine increment_isRead postfixed canonical read ?_
        cases op <;> first | exact level | cases postfixed
      · exact prefix_isRead prefixed canonical read level
  | @binary op left right canonical other leftLevel rightLevel read besides =>
      have levels : op = .index ∨ op.level = 1 ∨ (3 ≤ op.level ∧ op.level ≤ 12) := by
        cases op <;> simp [BinaryOp.level]
      obtain rfl | assigns | ⟨loosest, tightest⟩ := levels
      · exact index_isRead canonical other read besides leftLevel
      · exact assignment_isRead assigns canonical other read besides leftLevel rightLevel
      · exact chain_isRead loosest tightest canonical other read besides leftLevel rightLevel
  | member canonical level read => exact member_isRead canonical read level
  | call canonical level each levels read reads =>
      exact call_isRead canonical each levels read reads level
  | comma several each levels reads => exact comma_isRead several each levels reads
  | cond test whenTrue whenFalse testLevel falseLevel tested yes no =>
      exact cond_isRead test whenTrue whenFalse testLevel falseLevel tested yes no

/-- The marks that an expression is followed by in statements and declarations. -/
def closingMarks : List Punctuator :=
  [.semicolon, .parenClose, .bracketClose, .braceClose, .colon]

theorem closingMarks_stop {mark : Punctuator} (closes : mark ∈ closingMarks) :
    Stops 0 (.punctuator mark) := by
  refine stops_mark ?_
  simp only [closingMarks, List.mem_cons, List.not_mem_nil, or_false] at closes
  obtain rfl | rfl | rfl | rfl | rfl := closes <;> rfl

/-- Reading undoes writing: from the tokens of a canonical tree, none of whose names is that
of a type, an expression is read that stands for the tree, and nothing else is consumed. -/
theorem expression_complete (tokens : Tokens) {depth : Nat} {s : State} {tree : Tree}
    {mark : Punctuator} {rest : List Kind} (canonical : tree.Canonical)
    (closes : mark ∈ closingMarks) (fits : tree.kinds.length ≤ depth)
    (plain : ∀ name ∈ tree.names, s.scopes.isTypedef name = false)
    (ahead : tokens.ahead s.position = tree.kinds ++ .punctuator mark :: rest) :
    ∃ id s', expression (Rules.nested depth) tokens s = .ok id s' ∧
      s'.position = s.position + tree.kinds.length ∧ s'.arenas.Stands id tree ∧
      s'.scopes = s.scopes := by
  have facing : Facing tokens depth s tree (.punctuator mark) rest := ⟨fits, plain, ahead⟩
  obtain ⟨id, s', run, reached, stands⟩ :=
    (canonical_isRead canonical).reads 0 (Nat.zero_le _) depth s _ _ facing
      (closingMarks_stop closes)
  exact ⟨id, s', run, position_of_ahead ahead reached.ahead, stands, reached.scopes⟩

def choiceTree : Tree :=
  .binary .eq (.name "a") (.cond (.unary .indir (.unary .postInc (.name "p")))
    (.call (.name "f") [.name "x", .number "1"]) (.binary .index (.name "b") (.number "2")))

theorem expression_complete_choice :
    choiceTree.Canonical ∧ ∃ id s', expression (Rules.nested 17) choiceTokens {} = .ok id s' ∧
      s'.position = 17 ∧ s'.arenas.Stands id choiceTree := by
  have test : (Tree.unary .indir (.unary .postInc (.name "p"))).Canonical :=
    .unary (.unary .name (by decide)) (by decide)
  have call : (Tree.call (.name "f") [.name "x", .number "1"]).Canonical := by
    refine .call .name (by decide) ?_ (by decide)
    intro argument member
    obtain rfl | rfl : argument = .name "x" ∨ argument = .number "1" := by simpa using member
    · exact .name
    · exact .number
  have index : (Tree.binary .index (.name "b") (.number "2")).Canonical :=
    .binary .name .number (by decide) (by decide)
  have canonical : choiceTree.Canonical :=
    .binary .name (.cond test call index (by decide) (by decide)) (by decide) (by decide)
  have written : choiceTokens.ahead 0 = choiceTree.kinds ++ [.punctuator .semicolon, .eof] := by
    decide +kernel
  obtain ⟨id, s', run, position, stands, -⟩ :=
    @expression_complete choiceTokens 17 {} choiceTree .semicolon [.eof] canonical
      (by decide) (by decide) (by decide) written
  exact ⟨canonical, id, s', run, position, stands⟩

end SyntaxGraph.Grammar

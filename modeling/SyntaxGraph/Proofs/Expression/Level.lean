import Mathlib.Tactic.IntervalCases
import SyntaxGraph.Proofs.Expression.Faithful
import SyntaxGraph.Proofs.Grammar.Parses

/-!
# Levels of precedence

Reading at a level of precedence takes a whole tree of at least that level if what comes
behind it continues only expressions of looser levels.  Where a level is read in a loop, the
loop is at its operand when the operator is reached; so what is said of such a level is that
a loop that goes on behind the tree can be put behind the reading of the tree.  A tree that
is read at its own level is read at every looser one.
-/

set_option autoImplicit false

namespace SyntaxGraph.Grammar

open Token (Kind Punctuator)
open SyntaxGraph.Expr (Tree)

variable {tokens : Tokens} {rules : Rules} {s : State} {kind : Kind} {rest : List Kind}
  {level depth : Nat} {tree : Tree}

/-! ## What a token continues -/

/-- The level of the expression that a token behind an operand goes on with. -/
def continuation : Kind → Option Nat
  | .string _ => some 16
  | .punctuator .bracketOpen | .punctuator .parenOpen | .punctuator .dot | .punctuator .arrow
  | .punctuator .plusPlus | .punctuator .minusMinus => some 15
  | .punctuator .question => some 2
  | .punctuator .comma => some 0
  | .punctuator mark => (binaryOp? mark).map BinaryOp.level
  | _ => none

/-- An expression of this level ends in front of the token. -/
def Stops (level : Nat) (kind : Kind) : Prop :=
  ∀ found, continuation kind = some found → found < level

theorem Stops.mono {tighter : Nat} (stops : Stops level kind) (le : level ≤ tighter) :
    Stops tighter kind :=
  fun found continues => Nat.lt_of_lt_of_le (stops found continues) le

theorem continuation_mark {mark : Punctuator} {op : BinaryOp} (writes : binaryOp? mark = some op) :
    continuation (.punctuator mark) = some op.level := by
  cases mark <;> cases writes <;> rfl

theorem stops_mark {mark : Punctuator} (none : continuation (.punctuator mark) = none) :
    Stops level (.punctuator mark) := by
  intro found continues
  rw [none] at continues
  cases continues

theorem stops_at {found : Nat} (continues : continuation kind = some found)
    (below : found < level) : Stops level kind := by
  intro other same
  rw [continues] at same
  cases same
  exact below

/-- No token goes on with a cast. -/
theorem Stops.cast (stops : Stops 14 kind) : Stops 13 kind := by
  intro found continues
  have below := stops found continues
  unfold continuation at continues
  split at continues
  case h_10 mark _ _ _ _ _ _ _ _ =>
    obtain ⟨op, -, same⟩ := Option.map_eq_some_iff.mp continues
    have other : op.level ≠ 13 := by cases op <;> decide
    omega
  all_goals cases continues
  all_goals omega

/-- The reading of expressions of a level. -/
def readAt (rules : Rules) : Nat → Parse ExprId
  | 0 => expression rules
  | 1 => assignment rules
  | 2 => conditional rules
  | 14 => unary rules
  | 15 => primary rules >>= suffixed rules
  | 16 => primary rules
  | level => binary rules (13 - level)

theorem readAt_chain (loosest : 3 ≤ level) (tightest : level ≤ 12) :
    readAt rules level = readAt rules (level + 1) >>=
      Parse.iterate (chainRound (fun op => op.tier = 13 - level) (readAt rules (level + 1))) := by
  interval_cases level <;> rfl

/-! ## Trees in front of a token -/

/-- A tree comes next, and then a token; the bound on the nesting is enough for the tree, and
none of its names is that of a type. -/
structure Facing (tokens : Tokens) (depth : Nat) (s : State) (tree : Tree) (kind : Kind)
    (rest : List Kind) : Prop where
  fits : tree.kinds.length ≤ depth
  plain : ∀ name ∈ tree.names, s.scopes.isTypedef name = false
  ahead : tokens.ahead s.position = tree.kinds ++ kind :: rest

/-- Where the scopes are the same, a name that was none of a type still is none. -/
theorem Reaches.plain {names : List String} {middle : State}
    (reached : Reaches tokens s rest middle)
    (plain : ∀ name ∈ names, s.scopes.isTypedef name = false) :
    ∀ name ∈ names, middle.scopes.isTypedef name = false := by
  rw [reached.scopes]
  exact plain

theorem Facing.inside (facing : Facing tokens depth s tree kind rest) :
    s.position < tokens.size := by
  have some : 0 < (tokens.ahead s.position).length := by
    rw [facing.ahead, List.length_append, List.length_cons]
    omega
  rw [Tokens.ahead, List.length_drop, Tokens.kinds_length] at some
  omega

/-- The bound on the nesting leaves one level for what stands inside a tree. -/
theorem Facing.deeper (facing : Facing tokens depth s tree kind rest) (some : tree.kinds ≠ []) :
    ∃ less, depth = less + 1 := by
  have fits := facing.fits
  have length := List.length_pos_iff.mpr some
  exact ⟨depth - 1, by omega⟩

/-- Reading at the level takes the tree. -/
def ReadsAt (tokens : Tokens) (tree : Tree) (level : Nat) : Prop :=
  ∀ depth s kind rest, Facing tokens depth s tree kind rest → Stops level kind →
    Parses tokens s (readAt (Rules.nested depth) level) (kind :: rest)
      fun id s' => s'.arenas.Stands id tree

/-- The loop of the level can go on behind the tree. -/
def ChainsAt (tokens : Tokens) (tree : Tree) (level : Nat) : Prop :=
  ∀ depth s kind rest final (after : ExprId → State → Prop),
    Facing tokens depth s tree kind rest → Stops (level + 1) kind →
    (∀ id middle, Reaches tokens s (kind :: rest) middle → middle.arenas.Stands id tree →
      Parses tokens middle (Parse.iterate (chainRound (fun op => op.tier = 13 - level)
        (readAt (Rules.nested depth) (level + 1))) id) final after) →
    Parses tokens s (readAt (Rules.nested depth) level) final after

/-- The loop over suffixes can go on behind the tree. -/
def SuffixesBehind (tokens : Tokens) (tree : Tree) : Prop :=
  ∀ depth s kind rest final (after : ExprId → State → Prop),
    Facing tokens depth s tree kind rest → Stops 16 kind →
    (∀ id middle start, Reaches tokens s (kind :: rest) middle → middle.arenas.Stands id tree →
      Parses tokens middle (Parse.iterate (suffixRound (Rules.nested depth) start) id)
        final after) →
    Parses tokens s (readAt (Rules.nested depth) 15) final after

/-! ## From a level to the next looser one -/

theorem operatorAt_none {admits : BinaryOp → Bool} (ahead : tokens.ahead s.position = kind :: rest)
    (refuses : ∀ mark op, kind = .punctuator mark → binaryOp? mark = some op →
      admits op = false) : operatorAt admits tokens s = .ok none s := by
  rw [operatorAt, bind_of_ok (peek_run ahead)]
  cases kind with
  | punctuator mark =>
      change EStateM.Result.ok ((binaryOp? mark).filter admits) s = _
      cases writes : binaryOp? mark with
      | none => rfl
      | some op => rw [Option.filter_some, refuses mark op rfl writes, if_neg (by simp)]
  | _ => rfl

theorem operatorAt_some {admits : BinaryOp → Bool} {mark : Punctuator} {op : BinaryOp}
    (ahead : tokens.ahead s.position = .punctuator mark :: rest)
    (writes : binaryOp? mark = some op) (admitted : admits op = true) :
    operatorAt admits tokens s = .ok (some op) s := by
  rw [operatorAt, bind_of_ok (peek_run ahead)]
  change EStateM.Result.ok ((binaryOp? mark).filter admits) s = _
  rw [writes, Option.filter_some, if_pos admitted]

theorem expression_of_assignment (reads : ReadsAt tokens tree 1) : ReadsAt tokens tree 0 := by
  intro depth s kind rest facing stops
  refine .here facing.inside fun start => ?_
  have first := reads depth s kind rest facing (stops.mono (by omega))
  have other : kind ≠ .punctuator .comma := by
    rintro rfl
    exact absurd (stops 0 rfl) (by omega)
  have alone : Parses tokens s (Parse.separated (assignment (Rules.nested depth)))
      (kind :: rest) fun ids s' => ∃ id, ids = [id] ∧ s'.arenas.Stands id tree := by
    refine .bind first fun id middle reached stands => ?_
    have none : Parses tokens middle (Parse.many (do
        if ← Parse.acceptMark .comma then some <$> assignment (Rules.nested depth)
        else return none)) (kind :: rest) fun others last => others = [] ∧ last = middle :=
      .manyStop (.decline reached.ahead other (.pure reached.ahead ⟨rfl, rfl, rfl⟩))
    refine .bind none fun others last further => ?_
    rintro ⟨rfl, rfl⟩
    exact .pure reached.ahead ⟨id, rfl, stands⟩
  refine .bind alone fun ids middle reached => ?_
  rintro ⟨id, rfl, stands⟩
  exact .pure reached.ahead stands

theorem assignment_of_conditional (reads : ReadsAt tokens tree 2) : ReadsAt tokens tree 1 := by
  intro depth s kind rest facing stops
  refine .bind (reads depth s kind rest facing (stops.mono (by omega)))
    fun id middle reached stands => ?_
  refine .of_run (operatorAt_none reached.ahead fun mark op same writes => ?_)
    (.pure reached.ahead stands)
  subst same
  have below := stops op.level (continuation_mark writes)
  cases assigns : op.isAssignment with
  | false => rfl
  | true =>
      rw [(isAssignment_level assigns).1] at below
      omega

theorem conditional_of_binary (reads : ReadsAt tokens tree 3) : ReadsAt tokens tree 2 := by
  intro depth s kind rest facing stops
  refine .here facing.inside fun start => ?_
  refine .bind (reads depth s kind rest facing (stops.mono (by omega)))
    fun id middle reached stands => ?_
  have other : kind ≠ .punctuator .question := by
    rintro rfl
    exact absurd (stops 2 rfl) (by omega)
  exact .decline reached.ahead other (.pure reached.ahead stands)

/-- The operand of a chain is in front of its loop. -/
theorem chainsAt_of_operand (loosest : 3 ≤ level) (tightest : level ≤ 12)
    (reads : ReadsAt tokens tree (level + 1)) : ChainsAt tokens tree level := by
  intro depth s kind rest final after facing stops goes
  rw [readAt_chain loosest tightest]
  exact .bind (reads depth s kind rest facing stops) goes

/-- The loop stops at a token that continues only looser levels. -/
theorem readsAt_of_chains (loosest : 3 ≤ level) (tightest : level ≤ 12)
    (chains : ChainsAt tokens tree level) : ReadsAt tokens tree level := by
  intro depth s kind rest facing stops
  refine chains depth s kind rest _ _ facing (stops.mono (Nat.le_succ _))
    fun id middle reached stands => .stop ?_
  refine .of_run (operatorAt_none reached.ahead fun mark op same writes => ?_)
    (.pure reached.ahead ⟨rfl, stands⟩)
  subst same
  have below := stops op.level (continuation_mark writes)
  refine decide_eq_false fun tier => ?_
  have inTier : 0 < op.tier := by omega
  have same := (tier_level inTier).1
  omega

theorem suffixRound_none {start : Location} {operand : ExprId}
    (ahead : tokens.ahead s.position = kind :: rest) (stops : Stops 15 kind) :
    suffixRound rules start operand tokens s = .ok none s := by
  rw [suffixRound, bind_of_ok (peek_run ahead)]
  have other : continuation kind ≠ some 15 := fun same => absurd (stops 15 same) (by omega)
  split
  case h_7 => rfl
  all_goals exact absurd rfl other

theorem suffixesBehind_of_primary (reads : ReadsAt tokens tree 16) :
    SuffixesBehind tokens tree := by
  intro depth s kind rest final after facing stops goes
  refine .bind (reads depth s kind rest facing stops) fun id middle reached stands => ?_
  obtain ⟨expr, found⟩ := stands.expr?
  exact .look (exprSpan_run found) fun span => goes id middle span.start reached stands

theorem readsAt_of_suffixes (suffixes : SuffixesBehind tokens tree) :
    ReadsAt tokens tree 15 := by
  intro depth s kind rest facing stops
  refine suffixes depth s kind rest _ _ facing (stops.mono (by omega))
    fun id middle start reached stands => .stop ?_
  exact ⟨_, _, suffixRound_none reached.ahead stops, ⟨reached.ahead, rfl, .refl _⟩, rfl, stands⟩

/-! ## How a tree begins -/

def startsPrimary : Kind → Bool
  | .identifier _ | .number _ | .character _ | .string _ | .punctuator .parenOpen => true
  | _ => false

/-- The tokens begin an expression of the level, and neither a type nor one in parentheses. -/
structure Begins (scopes : Scopes) (level : Nat) (first : Kind) (more : List Kind) : Prop where
  noType : startsTypeName scopes first = false
  noCast : first = .punctuator .parenOpen →
    ∃ second others, more = second :: others ∧ startsTypeName scopes second = false
  noClose : first ≠ .punctuator .parenClose
  primary : 15 ≤ level → startsPrimary first = true

def Leads (scopes : Scopes) (level : Nat) (kinds : List Kind) : Prop :=
  ∃ first more, kinds = first :: more ∧ Begins scopes level first more

theorem Leads.append {scopes : Scopes} {kinds : List Kind} (leads : Leads scopes level kinds)
    {looser : Nat} (primary : 15 ≤ looser → 15 ≤ level) (tail : List Kind) :
    Leads scopes looser (kinds ++ tail) := by
  obtain ⟨first, more, rfl, begins⟩ := leads
  refine ⟨first, more ++ tail, rfl, begins.noType, fun opens => ?_, begins.noClose,
    fun tight => begins.primary (primary tight)⟩
  obtain ⟨second, others, rfl, noType⟩ := begins.noCast opens
  exact ⟨second, others ++ tail, rfl, noType⟩

theorem Leads.single {scopes : Scopes} {first : Kind} (primary : startsPrimary first = true)
    (other : first ≠ .punctuator .parenOpen) (noType : startsTypeName scopes first = false)
    (more : List Kind) : Leads scopes level (first :: more) := by
  refine ⟨first, more, rfl, noType, fun opens => absurd opens other, ?_, fun _ => primary⟩
  rintro rfl
  cases primary

theorem canonical_leads {scopes : Scopes} (canonical : tree.Canonical) :
    (∀ name ∈ tree.names, scopes.isTypedef name = false) →
      Leads scopes tree.level tree.kinds := by
  induction canonical with
  | @name text =>
      intro plain
      have noType : startsTypeName scopes (.identifier text) = false :=
        plain text (List.mem_singleton.mpr rfl)
      exact .single rfl (by simp) noType []
  | number | character =>
      intro _
      exact .single rfl (by simp) rfl []
  | @string pieces some =>
      intro _
      obtain ⟨piece, others, rfl⟩ := List.exists_cons_of_ne_nil some
      exact .single rfl (by simp) rfl _
  | @unary op operand _ level ih =>
      intro plain
      have inner := ih plain
      by_cases tight : op.level = 14
      · rw [Tree.kinds_prefix tight]
        refine ⟨op.token, operand.kinds, rfl, ?_, fun opens => ?_, ?_, fun primary => ?_⟩
        · cases op <;> rfl
        · cases op <;> first | (cases opens; done) | cases tight
        · cases op <;> simp [UnaryOp.token]
        · change 15 ≤ op.level at primary
          omega
      · cases op
        case paren =>
          obtain ⟨first, more, same, begins⟩ := inner
          refine ⟨_, _, rfl, rfl, fun _ => ?_, by simp, fun _ => rfl⟩
          rw [same]
          exact ⟨first, _, rfl, begins.noType⟩
        case postInc | postDec => exact inner.append (fun _ => level) _
        all_goals exact absurd rfl tight
  | @binary op left right _ _ leftLevel _ first _ =>
      intro plain
      have begins := first fun name member => plain name (List.mem_append_left _ member)
      have primary : 15 ≤ op.level → 15 ≤ left.level := by
        unfold BinaryOp.leftLevel at leftLevel
        split at leftLevel <;> omega
      by_cases subscript : op = .index
      · subst subscript
        exact begins.append primary _
      · rw [Tree.kinds_infix subscript]
        exact begins.append primary _
  | member _ level ih =>
      intro plain
      exact (ih plain).append (fun _ => level) _
  | call _ level _ _ ih =>
      intro plain
      exact (ih fun name member => plain name (List.mem_append_left _ member)).append
        (fun _ => level) _
  | @comma items several _ _ each =>
      intro plain
      obtain ⟨first, others, rfl⟩ := List.exists_cons_of_length_pos (Nat.zero_lt_of_lt several)
      have begins := each first (by simp) fun name member =>
        plain name (List.mem_append_left _ member)
      exact begins.append (fun tight => absurd tight (by simp [Tree.level])) _
  | cond _ _ _ _ _ test _ _ =>
      intro plain
      have begins := test fun name member =>
        plain name (List.mem_append_left _ (List.mem_append_left _ member))
      exact begins.append (fun tight => absurd tight (by simp [Tree.level])) _

theorem Facing.leads (facing : Facing tokens depth s tree kind rest)
    (canonical : tree.Canonical) :
    Leads s.scopes tree.level (tokens.ahead s.position) := by
  rw [facing.ahead]
  exact (canonical_leads canonical facing.plain).append (fun tight => tight) _

theorem atParenthesizedType_run (leads : Leads s.scopes level (tokens.ahead s.position)) :
    atParenthesizedType tokens s = .ok false s := by
  obtain ⟨first, more, ahead, begins⟩ := leads
  rw [atParenthesizedType, bind_of_ok (at?_run ahead _)]
  change EStateM.Result.ok (decide (first = .punctuator .parenOpen) &&
    startsTypeName s.scopes (tokens.kind (s.position + 1))) s = _
  by_cases opens : first = .punctuator .parenOpen
  · obtain ⟨second, others, rfl, noType⟩ := begins.noCast opens
    obtain ⟨-, -, behind⟩ := Tokens.of_ahead_cons ahead
    obtain ⟨-, same, -⟩ := Tokens.of_ahead_cons behind
    rw [same, noType, Bool.and_false]
  · rw [decide_eq_false opens, Bool.false_and]

theorem unary_of_postfix (canonical : tree.Canonical) (tight : 15 ≤ tree.level)
    (reads : ReadsAt tokens tree 15) : ReadsAt tokens tree 14 := by
  intro depth s kind rest facing stops
  obtain ⟨first, more, ahead, begins⟩ := facing.leads canonical
  have postfixed := reads depth s kind rest facing (stops.mono (by omega))
  refine .here facing.inside fun start => .peek ahead ?_
  have primary := begins.primary tight
  cases first with
  | punctuator mark =>
      cases mark
      case parenOpen => exact postfixed
      all_goals cases primary
  | keyword word => cases primary
  | eof => cases primary
  | _ => exact postfixed

theorem cast_of_unary (canonical : tree.Canonical) (reads : ReadsAt tokens tree 14) :
    ReadsAt tokens tree 13 := by
  intro depth s kind rest facing stops
  have unary := reads depth s kind rest facing (stops.mono (by omega))
  exact .of_run (atParenthesizedType_run (facing.leads canonical)) unary

/-! ## All levels of a tree -/

/-- A canonical tree is read at its own level and at each looser one. -/
structure IsRead (tokens : Tokens) (tree : Tree) : Prop where
  reads (level : Nat) (le : level ≤ tree.level) : ReadsAt tokens tree level
  chains (level : Nat) (loosest : 3 ≤ level) (tightest : level ≤ 12) (le : level ≤ tree.level) :
    ChainsAt tokens tree level
  suffixes (tight : 15 ≤ tree.level) : SuffixesBehind tokens tree

theorem level_le (tree : Tree) : tree.level ≤ 16 := by
  have unary (op : UnaryOp) : op.level ≤ 16 := by cases op <;> decide
  have binary (op : BinaryOp) : op.level ≤ 16 := by cases op <;> decide
  cases tree with
  | unary op operand => exact unary op
  | binary op left right => exact binary op
  | _ => simp [Tree.level]

theorem IsRead.of_level (canonical : tree.Canonical) (own : ReadsAt tokens tree tree.level)
    (chains : 3 ≤ tree.level → tree.level ≤ 12 → ChainsAt tokens tree tree.level)
    (suffixes : tree.level = 15 → SuffixesBehind tokens tree) : IsRead tokens tree := by
  have top := level_le tree
  have looser (level : Nat) (le : level + 1 ≤ tree.level)
      (reads : ReadsAt tokens tree (level + 1)) : ReadsAt tokens tree level := by
    by_cases chained : 3 ≤ level ∧ level ≤ 12
    · obtain ⟨loosest, tightest⟩ := chained
      exact readsAt_of_chains loosest tightest (chainsAt_of_operand loosest tightest reads)
    · have others : level = 0 ∨ level = 1 ∨ level = 2 ∨ level = 13 ∨ level = 14 ∨ level = 15 := by
        omega
      obtain rfl | rfl | rfl | rfl | rfl | rfl := others
      · exact expression_of_assignment reads
      · exact assignment_of_conditional reads
      · exact conditional_of_binary reads
      · exact cast_of_unary canonical reads
      · exact unary_of_postfix canonical le reads
      · exact readsAt_of_suffixes (suffixesBehind_of_primary reads)
  have reads (level : Nat) (le : level ≤ tree.level) : ReadsAt tokens tree level := by
    induction le using Nat.decreasingInduction with
    | self => exact own
    | of_succ level below ih => exact looser level below ih
  refine ⟨reads, fun level loosest tightest le => ?_, fun tight => ?_⟩
  · rcases Nat.lt_or_eq_of_le le with below | same
    · exact chainsAt_of_operand loosest tightest (reads _ below)
    · subst same
      exact chains loosest tightest
  · rcases Nat.lt_or_eq_of_le tight with below | same
    · exact suffixesBehind_of_primary (reads 16 below)
    · exact suffixes same.symm

end SyntaxGraph.Grammar

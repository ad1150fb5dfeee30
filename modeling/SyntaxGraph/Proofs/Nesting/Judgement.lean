import SyntaxGraph.Proofs.Grammar.Runs
import SyntaxGraph.Proofs.Grammar.Repetition

/-!
# Readings and the parentheses they pass

`Passed` says of a state how many parentheses are open behind the tokens read since an
earlier one, and that the expressions of the earlier one are still there.  A reading nests
from one number of open parentheses to another if it leads from states with the first to
states with the second wherever it ends with a value; it is neutral if it leaves the
number as it is.  Tokens that are known to come next can be assumed, so that what a
reading does after it has looked at a token can be followed.

Nothing is said of readings that fail, so neither the tokens nor the state need be sound.
-/

set_option autoImplicit false

namespace SyntaxGraph.Grammar

open Token (Kind Keyword Punctuator nesting nesting_append)

variable {α β : Type} {tokens : Tokens} {known : List Kind} {kind : Kind} {a b c : Nat}

/-- From `origin` with `base` parentheses open to `s` with `depth` of them. -/
structure Passed (tokens : Tokens) (origin : State) (base depth : Nat) (s : State) : Prop where
  place_le : origin.position ≤ s.position
  nesting : Token.nesting base (tokens.between origin.position s.position) = some depth
  kept : origin.arenas.exprs.toList <+: s.arenas.exprs.toList

/-- With `a` parentheses open at the least, and `known` the tokens that come next, the
reading ends with `b` in place of the `a`. -/
def Nests (tokens : Tokens) (known : List Kind) (a b : Nat) (reading : Parse α) : Prop :=
  ∀ origin base depth s, Passed tokens origin base (depth + a) s →
    known <+: tokens.ahead s.position →
    ∀ value s', reading tokens s = .ok value s' → Passed tokens origin base (depth + b) s'

abbrev Neutral (tokens : Tokens) (reading : Parse α) : Prop := Nests tokens [] 0 0 reading

theorem Passed.start (tokens : Tokens) (depth : Nat) (s : State) :
    Passed tokens s depth depth s where
  place_le := Nat.le_refl _
  nesting := by rw [Tokens.between_self]; rfl
  kept := List.prefix_rfl

/-- What a state has passed depends on its position and its expressions only. -/
theorem Passed.congr {origin s s' : State} {base depth : Nat}
    (passed : Passed tokens origin base depth s) (position : s'.position = s.position)
    (exprs : s.arenas.exprs.toList <+: s'.arenas.exprs.toList) :
    Passed tokens origin base depth s' where
  place_le := by rw [position]; exact passed.place_le
  nesting := by rw [position]; exact passed.nesting
  kept := passed.kept.trans exprs

/-- A stretch of tokens that nests leads from a state at its start to one at its end. -/
theorem Passed.extend {origin s s' : State} {base depth behind : Nat}
    (passed : Passed tokens origin base depth s) (le : s.position ≤ s'.position)
    (nests : Token.nesting depth (tokens.between s.position s'.position) = some behind)
    (exprs : s.arenas.exprs.toList <+: s'.arenas.exprs.toList) :
    Passed tokens origin base behind s' where
  place_le := Nat.le_trans passed.place_le le
  nesting := by
    rw [← Tokens.between_append passed.place_le le, nesting_append, passed.nesting,
      Option.bind_some]
    exact nests
  kept := passed.kept.trans exprs

theorem Passed.step {origin s : State} {base depth behind : Nat}
    (passed : Passed tokens origin base depth s) (inside : s.position < tokens.size)
    (step : (tokens.kind s.position).nest depth = some behind) :
    Passed tokens origin base behind { s with position := s.position + 1 } := by
  refine passed.extend (Nat.le_succ _) ?_ List.prefix_rfl
  rw [Tokens.between_succ inside, Token.nesting_cons, step]
  rfl

theorem Nests.passed {reading : Parse α} (nests : Nests tokens known a b reading)
    {s s' : State} {value : α} (ahead : known <+: tokens.ahead s.position)
    (run : reading tokens s = .ok value s') : Passed tokens s a b s' := by
  have start : Passed tokens s a (0 + a) s := by
    rw [Nat.zero_add]
    exact Passed.start tokens a s
  have ended := nests s a 0 s start ahead value s' run
  rwa [Nat.zero_add] at ended

/-- What a neutral reading consumes is balanced, and it keeps the expressions. -/
theorem Nests.consumes {reading : Parse α} (neutral : Neutral tokens reading) {s s' : State}
    {value : α} (run : reading tokens s = .ok value s') :
    s.position ≤ s'.position ∧ Token.Balanced (tokens.between s.position s'.position) ∧
      s.arenas.exprs.toList <+: s'.arenas.exprs.toList := by
  have passed := neutral.passed List.nil_prefix run
  exact ⟨passed.place_le, passed.nesting, passed.kept⟩

/-- The reading stays where it is, and keeps the expressions. -/
def Stays (tokens : Tokens) (reading : Parse α) : Prop :=
  ∀ s value s', reading tokens s = .ok value s' →
    s'.position = s.position ∧ s.arenas.exprs.toList <+: s'.arenas.exprs.toList

namespace Stays

theorem of_observes {reading : Parse α} (observes : Observes reading) : Stays tokens reading := by
  intro s value s' run
  obtain rfl := observes tokens s value s' run
  exact ⟨rfl, List.prefix_rfl⟩

theorem bind {reading : Parse α} {next : α → Parse β} (first : Stays tokens reading)
    (rest : ∀ value, Stays tokens (next value)) : Stays tokens (reading >>= next) := by
  intro s value s' run
  obtain ⟨found, middle, ran, done⟩ := bind_ok run
  obtain ⟨position, exprs⟩ := first s found middle ran
  obtain ⟨same, more⟩ := rest found middle value s' done
  exact ⟨same.trans position, exprs.trans more⟩

theorem add {ι : Type} {insert : Arenas → ι × Arenas}
    (keeps : ∀ a : Arenas, a.exprs.toList <+: (insert a).2.exprs.toList) :
    Stays tokens (Parse.add insert) := by
  intro s value s' run
  obtain ⟨-, rfl⟩ := add_ok run
  exact ⟨rfl, keeps s.arenas⟩

theorem modifyScopes {change : Scopes → Scopes} :
    Stays tokens (Parse.modifyScopes change) := by
  intro s value s' run
  cases run
  exact ⟨rfl, List.prefix_rfl⟩

theorem note {entry : Entry} : Stays tokens (Parse.note entry) := by
  intro s value s' run
  cases run
  exact ⟨rfl, List.prefix_rfl⟩

end Stays

namespace Nests

/-! ## Composition -/

theorem pure {value : α} : Nests tokens known a a (pure value) := by
  intro origin base depth s passed ahead result s' run
  obtain ⟨-, rfl⟩ := pure_ok run
  exact passed

theorem fail {cause : Cause} : Nests tokens known a b (Parse.fail cause : Parse α) := by
  intro origin base depth s passed ahead value s' run
  cases run

theorem refuse {cause : Cause} {next : β → Parse α} :
    Nests tokens known a b (Parse.fail cause >>= next) := by
  intro origin base depth s passed ahead value s' run
  cases run

/-- What is known of the next tokens need not be used. -/
theorem stay {reading : Parse α} (nests : Nests tokens [] a b reading) :
    Nests tokens known a b reading :=
  fun origin base depth s passed _ => nests origin base depth s passed List.nil_prefix

/-- More parentheses may be open. -/
theorem lift {reading : Parse α} (nests : Nests tokens known a b reading) (outer : Nat) :
    Nests tokens known (outer + a) (outer + b) reading := by
  intro origin base depth s passed ahead value s' run
  rw [← Nat.add_assoc] at passed ⊢
  exact nests origin base (depth + outer) s passed ahead value s' run

theorem bind {reading : Parse α} {next : α → Parse β} (first : Nests tokens known a b reading)
    (rest : ∀ value, Nests tokens [] b c (next value)) :
    Nests tokens known a c (reading >>= next) := by
  intro origin base depth s passed ahead value s' run
  obtain ⟨found, middle, ran, done⟩ := bind_ok run
  have between := first origin base depth s passed ahead found middle ran
  exact rest found origin base depth middle between List.nil_prefix value s' done

theorem map {reading : Parse α} {change : α → β} (nests : Nests tokens known a b reading) :
    Nests tokens known a b (change <$> reading) := by
  intro origin base depth s passed ahead value s' run
  obtain ⟨found, ran, -⟩ := map_ok run
  exact nests origin base depth s passed ahead found s' ran

/-- Behind a reading that stays the same tokens come next as in front of it. -/
theorem keep {reading : Parse α} {next : α → Parse β} (stays : Stays tokens reading)
    (rest : ∀ value, Nests tokens known a b (next value)) :
    Nests tokens known a b (reading >>= next) := by
  intro origin base depth s passed ahead value s' run
  obtain ⟨found, middle, ran, done⟩ := bind_ok run
  obtain ⟨position, exprs⟩ := stays s found middle ran
  rw [← position] at ahead
  exact rest found origin base depth middle (passed.congr position exprs) ahead value s' done

theorem look {reading : Parse α} {next : α → Parse β} (observes : Observes reading)
    (rest : ∀ value, Nests tokens known a b (next value)) :
    Nests tokens known a b (reading >>= next) :=
  keep (.of_observes observes) rest

end Nests

namespace Nests

theorem andThen {reading : Parse α} {next : α → Parse β} (neutral : Neutral tokens reading)
    (rest : ∀ value, Nests tokens [] a b (next value)) :
    Nests tokens [] a b (reading >>= next) :=
  (neutral.lift a).bind rest

end Nests

/-! ## Tokens -/

namespace Nests

theorem peek {next : Kind → Parse β}
    (rest : ∀ kind, Nests tokens [kind] a b (next kind)) :
    Nests tokens [] a b (Parse.peek >>= next) := by
  intro origin base depth s passed ahead value s' run
  obtain ⟨found, middle, looked, done⟩ := bind_ok run
  obtain ⟨rfl, rfl, inside⟩ := peek_ok looked
  refine rest _ origin base depth middle passed ?_ value s' done
  rw [Tokens.ahead_cons inside]
  exact ⟨_, rfl⟩

/-- The next token but one, which is the end of the file if there is none. -/
theorem peekNext {next : Kind → Parse β}
    (rest : ∀ behind, behind ≠ .eof → Nests tokens [kind, behind] a b (next behind))
    (last : Nests tokens [kind] a b (next .eof)) :
    Nests tokens [kind] a b (Parse.peekNext >>= next) := by
  intro origin base depth s passed ahead value s' run
  obtain ⟨found, middle, looked, done⟩ := bind_ok run
  obtain ⟨same, rfl⟩ := peekNext_ok looked
  by_cases ended : found = .eof
  · subst ended
    exact last origin base depth middle passed ahead value s' done
  · refine rest found ended origin base depth middle passed ?_ value s' done
    obtain ⟨behind, equal⟩ := ahead
    obtain ⟨-, -, second⟩ := Tokens.of_ahead_cons equal.symm
    have inside := Tokens.inside_of_kind (same ▸ ended)
    rw [Tokens.ahead_cons inside, ← same] at second
    rw [← equal]
    exact ⟨_, congrArg (kind :: ·) second⟩

theorem advance {next : Unit → Parse β} (step : kind.nest a = some b)
    (rest : Nests tokens known b c (next ())) :
    Nests tokens (kind :: known) a c (Parse.advance >>= next) := by
  intro origin base depth s passed ahead value s' run
  obtain ⟨⟨⟩, middle, advanced, done⟩ := bind_ok run
  obtain ⟨behind, equal⟩ := ahead
  obtain ⟨inside, same, further⟩ := Tokens.of_ahead_cons equal.symm
  have inner : tokens.kind s.position ≠ .eof := by
    rintro last
    rw [← same, last] at step
    cases step
  obtain ⟨rfl, -⟩ := advance_ok advanced inner
  refine rest origin base depth _ (passed.step inside ?_) ⟨behind, further.symm⟩ value s' done
  rw [same]
  exact Token.Kind.nest_add step depth

theorem at? {next : Bool → Parse β} (whenThere : Nests tokens [kind] a b (next true))
    (otherwise : Nests tokens [] a b (next false)) :
    Nests tokens [] a b (Parse.at? kind >>= next) := by
  intro origin base depth s passed ahead value s' run
  obtain ⟨found, middle, looked, done⟩ := bind_ok run
  obtain ⟨rfl, rfl, inside⟩ := at?_ok looked
  by_cases there : tokens.kind middle.position = kind
  · rw [decide_eq_true there] at done
    refine whenThere origin base depth middle passed ?_ value s' done
    rw [Tokens.ahead_cons inside, there]
    exact ⟨_, rfl⟩
  · rw [decide_eq_false there] at done
    exact otherwise origin base depth middle passed ahead value s' done

theorem ifAt {yes no : Parse β} (whenThere : Nests tokens [kind] a b yes)
    (otherwise : Nests tokens [] a b no) :
    Nests tokens [] a b (do if ← Parse.at? kind then yes else no) :=
  at? whenThere otherwise

theorem ifAccept {yes no : Parse β} (step : kind.nest a = some b)
    (whenTaken : Nests tokens [] b c yes) (otherwise : Nests tokens [] a c no) :
    Nests tokens [] a c (do if ← Parse.accept kind then yes else no) := by
  intro origin base depth s passed ahead value s' run
  have inner : kind ≠ .eof := by
    rintro rfl
    cases step
  obtain ⟨taken, middle, accepted, done⟩ := bind_ok run
  have answer := accept_ok inner accepted
  cases taken with
  | true =>
      obtain ⟨same, rfl⟩ := answer
      have inside := Tokens.inside_of_kind (same ▸ inner)
      have moved := passed.step inside (same ▸ Token.Kind.nest_add step depth)
      exact whenTaken origin base depth _ moved List.nil_prefix value s' done
  | false =>
      obtain ⟨-, rfl⟩ := answer
      exact otherwise origin base depth middle passed ahead value s' done

theorem expect {context : String} (step : kind.nest a = some b) :
    Nests tokens [] a b (Parse.expect kind context) := by
  intro origin base depth s passed ahead value s' run
  have inner : kind ≠ .eof := by
    rintro rfl
    cases step
  obtain ⟨same, rfl, -⟩ := expect_ok inner run
  have inside := Tokens.inside_of_kind (same ▸ inner)
  exact passed.step inside (same ▸ Token.Kind.nest_add step depth)

theorem openParen {context : String} {next : Unit → Parse β}
    (rest : Nests tokens [] 1 b (next ())) :
    Nests tokens [] 0 b (Parse.expectMark .parenOpen context >>= next) :=
  .bind (expect rfl) fun _ => rest

theorem closeParen {context : String} {next : Unit → Parse β}
    (rest : Nests tokens [] 0 b (next ())) :
    Nests tokens [] 1 b (Parse.expectMark .parenClose context >>= next) :=
  .bind (expect rfl) fun _ => rest

end Nests

namespace Nests

theorem identifier : Neutral tokens Parse.identifier := by
  refine Nests.peek fun kind => ?_
  split
  · exact .advance rfl .pure
  · exact .fail

theorem identifier? : Neutral tokens Parse.identifier? := by
  refine Nests.peek fun kind => ?_
  split
  · exact .advance rfl .pure
  · exact .pure

theorem accept (step : kind.nest 0 = some 0) : Neutral tokens (Parse.accept kind) := by
  refine Nests.peek fun current => ?_
  split
  · next same => exact same ▸ .advance step .pure
  · exact .pure

/-! ## Nodes and scopes -/

theorem of_stays {reading : Parse α} (stays : Stays tokens reading) :
    Neutral tokens reading := by
  intro origin base depth s passed ahead value s' run
  obtain ⟨position, exprs⟩ := stays s value s' run
  exact passed.congr position exprs

theorem add {ι : Type} {insert : Arenas → ι × Arenas}
    (keeps : ∀ a : Arenas, a.exprs.toList <+: (insert a).2.exprs.toList) :
    Neutral tokens (Parse.add insert) :=
  of_stays (.add keeps)

theorem addDecl {decl : Decl} : Neutral tokens (Parse.addDecl decl) :=
  add fun _ => List.prefix_rfl

theorem addType {type : TypeNode} : Neutral tokens (Parse.addType type) :=
  add fun _ => List.prefix_rfl

theorem addExpr {form : Expr.Form} {span : Span} :
    Neutral tokens (Parse.addExpr form span) :=
  add fun a => toList_prefix_push a.exprs _

theorem addStmt {stmt : Stmt} : Neutral tokens (Parse.addStmt stmt) :=
  add fun _ => List.prefix_rfl

theorem addInit {init : Init} : Neutral tokens (Parse.addInit init) :=
  add fun _ => List.prefix_rfl

theorem addLabel {label : Label} : Neutral tokens (Parse.addLabel label) :=
  add fun _ => List.prefix_rfl

theorem note {entry : Entry} : Neutral tokens (Parse.note entry) := of_stays .note

theorem modifyArenas {change : Arenas → Arenas} (keeps : ∀ a, (change a).exprs = a.exprs) :
    Neutral tokens (Parse.modifyArenas change) := by
  refine of_stays fun s value s' run => ?_
  cases run
  have same : (change s.arenas).exprs.toList = s.arenas.exprs.toList :=
    congrArg Array.toList (keeps s.arenas)
  exact ⟨rfl, same ▸ List.prefix_rfl⟩

theorem completeType {id : TypeId} {decls : List DeclId} :
    Neutral tokens (Parse.completeType id decls) :=
  .look typeNode_observes fun _ => note.bind fun _ => modifyArenas fun _ => rfl

theorem modifyComments {id : DeclId} {change : Comments → Comments} :
    Neutral tokens (Parse.modifyComments id change) :=
  .look declNode_observes fun _ => modifyArenas fun _ => rfl

theorem modifyScopes {change : Scopes → Scopes} :
    Neutral tokens (Parse.modifyScopes change) :=
  of_stays .modifyScopes

theorem bindName {name : String} {nameKind : NameKind} :
    Neutral tokens (Parse.bindName name nameKind) :=
  .look arenas_observes fun _ => note.bind fun _ => modifyScopes

end Nests

theorem Nests.inScope {body : Parse α} (nests : Nests tokens [] a b body) :
    Nests tokens [] a b (Parse.inScope body) := by
  intro origin base depth s passed ahead value s' run
  obtain ⟨middle, ran, rfl⟩ := inScope_ok run
  have entered : Passed tokens origin base (depth + a) { s with scopes := {} :: s.scopes } :=
    passed.congr rfl List.prefix_rfl
  have left := nests origin base depth _ entered ahead value middle ran
  exact left.congr rfl List.prefix_rfl

/-! ## Repetition -/

namespace Nests

theorem rounds {step : α → Parse (Option α)} (each : ∀ value, Neutral tokens (step value))
    (bound : Nat) (value : α) : Neutral tokens (Parse.rounds step bound value) := by
  induction bound generalizing value with
  | zero => exact .fail
  | succ bound ih =>
      refine .look position_observes fun before => (each value).bind fun next => ?_
      cases next with
      | none => exact .pure
      | some next =>
          refine .look position_observes fun place => ?_
          split
          · exact ih next
          · exact .fail

theorem iterate {step : α → Parse (Option α)} (each : ∀ value, Neutral tokens (step value))
    (value : α) : Neutral tokens (Parse.iterate step value) :=
  .look read_observes fun _ => .look position_observes fun _ => rounds each _ value

theorem many {item : Parse (Option α)} (each : Neutral tokens item) :
    Neutral tokens (Parse.many item) :=
  .map (iterate (fun _ => .map each) [])

theorem separated {item : Parse α} (each : Neutral tokens item) :
    Neutral tokens (Parse.separated item) := by
  refine each.bind fun first => .bind (many ?_) fun others => .pure
  exact .ifAccept rfl (.map each) .pure

theorem listed {close : Punctuator} {item : Parse α} (each : Neutral tokens item) :
    Neutral tokens (Parse.listed close item) := by
  refine .bind (iterate (fun collected => ?_) _) fun found => .pure
  refine .look (peek_observes.bind fun _ => pure_observes) fun closed => ?_
  split
  · exact .pure
  · exact each.bind fun next => .bind (accept rfl) fun more => .pure

theorem mapM {item : α → Parse β} (each : ∀ value, Neutral tokens (item value))
    (values : List α) : Neutral tokens (values.mapM item) := by
  induction values with
  | nil => exact .pure
  | cons value values ih =>
      rw [List.mapM_cons]
      exact (each value).bind fun first => ih.bind fun others => .pure

theorem forM {item : α → Parse PUnit} (each : ∀ value, Neutral tokens (item value))
    (values : List α) : Neutral tokens (values.forM item) := by
  induction values with
  | nil => exact .pure
  | cons value values ih => exact (each value).bind fun _ => ih

theorem foldrM {item : α → β → Parse β} (each : ∀ value last, Neutral tokens (item value last))
    (last : β) (values : List α) : Neutral tokens (values.foldrM item last) := by
  induction values with
  | nil => exact .pure
  | cons value values ih =>
      rw [List.foldrM_cons]
      exact ih.bind fun next => each value next

end Nests

end SyntaxGraph.Grammar

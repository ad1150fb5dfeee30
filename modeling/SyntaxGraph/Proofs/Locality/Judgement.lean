import SyntaxGraph.Proofs.Grammar.Externals
import SyntaxGraph.Proofs.Spans.Judgement

/-!
# Readings that do not look behind the tokens

A cut replaces the end of the file by further tokens.  A reading is local if it does in front
of further tokens what it does in front of the end of the file, unless it gets as far as
there: it may look at the token where it ends.  Nothing looks further than one token ahead,
and that only from a token behind which a declaration cannot end.

A reading finishes if it ends behind a token that it demands.  It may end where the further
tokens begin, and still does the same in front of them.

The readings are the same two functions of the grammar over the rules for different bounds
on the nesting.
-/

set_option autoImplicit false

namespace SyntaxGraph.Grammar

open Token (Kind Keyword Punctuator)

variable {α β : Type} {kind : Kind}

/-- Tokens, and others that have further tokens in place of the end of the file. -/
structure Cut where
  tokens : Tokens
  more : Tokens
  last : Nat
  size : tokens.size = last + 1
  longer : last < more.size
  same : ∀ i < last, more[i]? = tokens[i]?
  ended : tokens.kind last = .eof
  closed : ∀ i, i + 1 = last → (tokens.kind i).closes = true

/-- The other reading ends as the first one does, unless that gets as far as the cut. -/
def Local (cut : Cut) (one other : Parse α) : Prop :=
  ∀ s value s', one cut.tokens s = .ok value s' →
    s.position ≤ s'.position ∧ (s'.position < cut.last → other cut.more s = .ok value s')

/-- The readings are local from tokens of this kind on. -/
def LocalAt (cut : Cut) (kind : Kind) (one other : Parse α) : Prop :=
  ∀ s value s', cut.tokens.kind s.position = kind → one cut.tokens s = .ok value s' →
    s.position ≤ s'.position ∧ (s'.position < cut.last → other cut.more s = .ok value s')

/-- The readings take a token at least and end alike, in front of the cut or at it. -/
def Finishes (cut : Cut) (one other : Parse α) : Prop :=
  ∀ s value s', one cut.tokens s = .ok value s' →
    s.position < s'.position ∧ s'.position ≤ cut.last ∧ other cut.more s = .ok value s'

/-- Behind a token the readings end alike at once. -/
def Settles (cut : Cut) (one other : Parse α) : Prop :=
  ∀ s value s', 0 < s.position → s.position ≤ cut.last → one cut.tokens s = .ok value s' →
    s'.position = s.position ∧ other cut.more s = .ok value s'

variable {cut : Cut}

namespace Cut

theorem kind_eq (cut : Cut) {i : Nat} (inside : i < cut.last) :
    cut.more.kind i = cut.tokens.kind i := by
  rw [Tokens.kind, Tokens.kind, cut.same i inside]

theorem tokenAt_eq (cut : Cut) {i : Nat} (inside : i < cut.last) (s : State) :
    Parse.tokenAt i cut.more s = Parse.tokenAt i cut.tokens s := by
  have size := cut.size
  have longer := cut.longer
  have within : i < cut.tokens.size := by omega
  have behind : i < cut.more.size := by omega
  have token := cut.same i inside
  rw [Array.getElem?_eq_getElem within, Array.getElem?_eq_getElem behind] at token
  rw [tokenAt_apply within, tokenAt_apply behind, Option.some.inj token]

theorem peek_eq (cut : Cut) {s : State} (inside : s.position < cut.last) :
    Parse.peek cut.more s = Parse.peek cut.tokens s := by
  have opened (tokens : Tokens) : Parse.peek tokens s =
      (do return (← Parse.tokenAt s.position).kind : Parse Kind) tokens s := rfl
  rw [opened, opened, bind_apply, bind_apply, cut.tokenAt_eq inside]
  cases Parse.tokenAt s.position cut.tokens s <;> rfl

theorem advance_eq (cut : Cut) {s : State} (inside : s.position < cut.last) :
    Parse.advance cut.more s = Parse.advance cut.tokens s := by
  have size := cut.size
  have longer := cut.longer
  rw [Parse.advance, bind_apply, bind_apply, cut.peek_eq inside]
  cases looked : Parse.peek cut.tokens s with
  | error => rfl
  | ok found middle =>
      obtain ⟨-, rfl, -⟩ := peek_ok looked
      dsimp only
      split
      · change Parse.moveTo (middle.position + 1) _ middle =
          Parse.moveTo (middle.position + 1) _ middle
        rw [moveTo_apply (by omega), moveTo_apply (by omega)]
      · rfl

theorem accept_eq (cut : Cut) {s : State} (inside : s.position < cut.last) :
    Parse.accept kind cut.more s = Parse.accept kind cut.tokens s := by
  rw [Parse.accept, bind_apply, bind_apply, cut.peek_eq inside]
  cases looked : Parse.peek cut.tokens s with
  | error => rfl
  | ok found middle =>
      obtain ⟨-, rfl, -⟩ := peek_ok looked
      dsimp only
      split
      · rw [bind_apply, bind_apply, cut.advance_eq inside]
        cases Parse.advance cut.tokens middle <;> rfl
      · rfl

theorem expect_eq (cut : Cut) {context : String} {s : State} (inside : s.position < cut.last) :
    Parse.expect kind context cut.more s = Parse.expect kind context cut.tokens s := by
  rw [Parse.expect, bind_apply, bind_apply, cut.peek_eq inside]
  cases looked : Parse.peek cut.tokens s with
  | error => rfl
  | ok found middle =>
      obtain ⟨-, rfl, -⟩ := peek_ok looked
      dsimp only
      split
      · exact cut.advance_eq inside
      · rfl

/-- Where there is a token that is not the end of the file is in front of the cut. -/
theorem lt_of_kind (cut : Cut) {i : Nat} (within : i < cut.tokens.size)
    (inner : cut.tokens.kind i ≠ .eof) : i < cut.last := by
  have size := cut.size
  have other : i ≠ cut.last := by
    rintro rfl
    exact inner cut.ended
  omega

/-- Behind a token that closes nothing there is another one in front of the cut. -/
theorem next_lt (cut : Cut) {i : Nat} (inside : i < cut.last)
    (opens : (cut.tokens.kind i).closes = false) : i + 1 < cut.last := by
  have other : i + 1 ≠ cut.last := by
    intro same
    rw [cut.closed i same] at opens
    cases opens
  omega

end Cut

namespace Local

variable {one other : Parse α} {next following : α → Parse β}

/-! ## Composition -/

theorem pure {value : α} : Local cut (Pure.pure value) (Pure.pure value) := by
  intro s found s' run
  obtain ⟨rfl, rfl⟩ := pure_ok run
  exact ⟨Nat.le_refl _, fun _ => rfl⟩

theorem fail {cause : Cause} {other : Parse α} : Local cut (Parse.fail cause) other := by
  intro s value s' run
  cases run

theorem refuse {cause : Cause} {other : Parse β} :
    Local cut (Parse.fail cause >>= next) other := by
  intro s value s' run
  cases run

theorem bind (first : Local cut one other) (rest : ∀ value, Local cut (next value)
    (following value)) : Local cut (one >>= next) (other >>= following) := by
  intro s value s' run
  obtain ⟨found, middle, ran, done⟩ := bind_ok run
  obtain ⟨le, same⟩ := first s found middle ran
  obtain ⟨further, ends⟩ := rest found middle value s' done
  refine ⟨le.trans further, fun inside => ?_⟩
  rw [bind_of_ok (same (further.trans_lt inside))]
  exact ends inside

theorem map {change : α → β} (near : Local cut one other) :
    Local cut (change <$> one) (change <$> other) :=
  near.bind fun _ => .pure

/-- A reading that makes no use of the tokens. -/
theorem steady {reading : Parse α}
    (blind : ∀ s, reading cut.more s = reading cut.tokens s)
    (stays : ∀ s value s', reading cut.tokens s = .ok value s' → s'.position = s.position) :
    Local cut reading reading := by
  intro s value s' run
  exact ⟨(stays s value s' run).ge, fun _ => (blind s).trans run⟩

/-! ## Tokens -/

theorem position : Local cut Parse.position Parse.position :=
  .steady (fun _ => rfl) fun s value s' run => by rw [position_observes _ _ _ _ run]

/-- A token that is not behind the current one. -/
theorem token (place : Nat → Nat) (le : ∀ i, place i ≤ i) (field : Token → α) :
    Local cut (do return field (← Parse.tokenAt (place (← Parse.position))))
      (do return field (← Parse.tokenAt (place (← Parse.position)))) := by
  intro s value s' run
  have opened (tokens : Tokens) :
      (do return field (← Parse.tokenAt (place (← Parse.position))) : Parse α) tokens s =
        (do return field (← Parse.tokenAt (place s.position)) : Parse α) tokens s := rfl
  rw [opened] at run ⊢
  obtain ⟨found, middle, looked, done⟩ := bind_ok run
  obtain rfl := tokenAt_observes _ _ _ _ looked
  obtain ⟨rfl, rfl⟩ := pure_ok done
  refine ⟨Nat.le_refl _, fun inside => ?_⟩
  rw [bind_of_ok ((cut.tokenAt_eq ((le _).trans_lt inside) _).trans looked)]
  rfl

theorem peek : Local cut Parse.peek Parse.peek := token (·) (fun _ => Nat.le_refl _) Token.kind

theorem here : Local cut Parse.here Parse.here := token (·) (fun _ => Nat.le_refl _) Token.start

theorem finishBefore : Local cut Parse.finishBefore Parse.finishBefore :=
  token (· - 1) (fun _ => Nat.sub_le _ _) Token.finish

theorem spanFrom {start : Location} : Local cut (Parse.spanFrom start) (Parse.spanFrom start) :=
  finishBefore.bind fun _ => .pure

theorem at? : Local cut (Parse.at? kind) (Parse.at? kind) := peek.bind fun _ => .pure

theorem advance : Local cut Parse.advance Parse.advance := by
  refine peek.bind fun found => ?_
  split
  · intro s value s' run
    have opened (tokens : Tokens) : (Parse.position >>= fun i => Parse.moveTo (i + 1)) tokens s =
      Parse.moveTo (s.position + 1) tokens s := rfl
    rw [opened] at run ⊢
    obtain ⟨-, rfl⟩ := moveTo_ok run
    have longer := cut.longer
    refine ⟨Nat.le_succ _, fun inside => moveTo_apply ?_ _⟩
    exact (show s.position + 1 < cut.last from inside).trans longer
  · exact .pure

theorem accept : Local cut (Parse.accept kind) (Parse.accept kind) := by
  refine peek.bind fun found => ?_
  split
  · exact advance.bind fun _ => .pure
  · exact .pure

theorem expect {context : String} :
    Local cut (Parse.expect kind context) (Parse.expect kind context) := by
  refine peek.bind fun found => ?_
  split
  · exact advance
  · exact .fail

theorem identifier : Local cut Parse.identifier Parse.identifier := by
  refine peek.bind fun found => ?_
  split
  · exact advance.bind fun _ => .pure
  · exact .fail

theorem identifier? : Local cut Parse.identifier? Parse.identifier? := by
  refine peek.bind fun found => ?_
  split
  · exact advance.bind fun _ => .pure
  · exact .pure

/-! ## Nodes and names -/

theorem add {ι : Type} {insert : Arenas → ι × Arenas} :
    Local cut (Parse.add insert) (Parse.add insert) :=
  .steady (fun _ => rfl) fun s value s' run => by rw [(add_ok run).2]

theorem present {node : NodeRef} (find : Arenas → Option α) :
    Local cut (do Parse.present node (find (← Parse.arenas)))
      (do Parse.present node (find (← Parse.arenas))) := by
  refine .steady (fun s => ?_) fun _ _ _ run => ?_
  · change Parse.present node (find s.arenas) _ s = Parse.present node (find s.arenas) _ s
    cases find s.arenas <;> rfl
  · rw [arenas_observes.bind (fun _ => present_observes) _ _ _ _ run]

theorem declNode {id : DeclId} : Local cut (Parse.declNode id) (Parse.declNode id) :=
  .present (·.decl? id)

theorem typeNode {id : TypeId} : Local cut (Parse.typeNode id) (Parse.typeNode id) :=
  .present (·.type? id)

theorem exprNode {id : ExprId} : Local cut (Parse.exprNode id) (Parse.exprNode id) :=
  .present (·.expr? id)

theorem declName {id : DeclId} : Local cut (Parse.declName id) (Parse.declName id) :=
  declNode.bind fun _ => .pure

theorem declSpan {id : DeclId} : Local cut (Parse.declSpan id) (Parse.declSpan id) :=
  declNode.bind fun _ => .pure

theorem exprSpan {id : ExprId} : Local cut (Parse.exprSpan id) (Parse.exprSpan id) :=
  exprNode.bind fun _ => .pure

theorem note {entry : Entry} : Local cut (Parse.note entry) (Parse.note entry) := by
  refine .steady (fun _ => rfl) fun _ _ _ run => ?_
  cases run
  rfl

theorem completeType {id : TypeId} {decls : List DeclId} :
    Local cut (Parse.completeType id decls) (Parse.completeType id decls) := by
  refine typeNode.bind fun _ => note.bind fun _ => .steady (fun _ => rfl) fun _ _ _ run => ?_
  cases run
  rfl

theorem scopes : Local cut Parse.scopes Parse.scopes :=
  .steady (fun _ => rfl) fun _ _ _ run => by rw [scopes_observes _ _ _ _ run]

theorem isTypedef {name : String} : Local cut (Parse.isTypedef name) (Parse.isTypedef name) :=
  scopes.bind fun _ => .pure

theorem modifyScopes {change : Scopes → Scopes} :
    Local cut (Parse.modifyScopes change) (Parse.modifyScopes change) :=
  .steady (fun _ => rfl) fun _ _ _ run => (modifyScopes_still _ _ _ _ run).1

theorem bindName {name : String} {nameKind : NameKind} :
    Local cut (Parse.bindName name nameKind) (Parse.bindName name nameKind) :=
  .steady (fun _ => rfl) fun _ _ _ run => (bindName_still _ _ _ _ run).1

theorem inScope (near : Local cut one other) :
    Local cut (Parse.inScope one) (Parse.inScope other) := by
  intro s value s' run
  obtain ⟨middle, ran, rfl⟩ := inScope_ok run
  obtain ⟨le, same⟩ := near { s with scopes := {} :: s.scopes } value middle ran
  exact ⟨le, fun inside => inScope_of_ok (same inside)⟩

/-! ## Repetition -/

theorem rounds {step round : α → Parse (Option α)}
    (near : ∀ value, Local cut (step value) (round value)) (bound : Nat) (value : α) :
    Local cut (Parse.rounds step bound value) (Parse.rounds round bound value) := by
  induction bound generalizing value with
  | zero => exact .fail
  | succ bound ih =>
      refine position.bind fun before => (near value).bind fun next => ?_
      split
      · exact .pure
      · refine position.bind fun place => ?_
        split
        · exact ih _
        · exact .fail

/-- There are more tokens, so more rounds are allowed. -/
theorem iterate {step round : α → Parse (Option α)}
    (near : ∀ value, Local cut (step value) (round value)) (value : α) :
    Local cut (Parse.iterate step value) (Parse.iterate round value) := by
  intro s final s' run
  have opened (step : α → Parse (Option α)) (tokens : Tokens) :
      Parse.iterate step value tokens s =
        Parse.rounds step (tokens.size - s.position + 1) value tokens s := rfl
  rw [opened] at run ⊢
  obtain ⟨le, same⟩ := rounds near _ value s final s' run
  have size := cut.size
  have longer := cut.longer
  exact ⟨le, fun inside => rounds_mono (by omega) (same inside)⟩

theorem many {item each : Parse (Option α)} (near : Local cut item each) :
    Local cut (Parse.many item) (Parse.many each) :=
  .map (.iterate (fun _ => .map near) [])

theorem separated (near : Local cut one other) :
    Local cut (Parse.separated one) (Parse.separated other) := by
  refine near.bind fun first => .bind (.many (accept.bind fun more => ?_)) fun others => .pure
  split
  · exact .map near
  · exact .pure

theorem listed {close : Punctuator} (near : Local cut one other) :
    Local cut (Parse.listed close one) (Parse.listed close other) := by
  refine .bind (.iterate (fun collected => at?.bind fun closed => ?_) _) fun _ => .pure
  split
  · exact .pure
  · exact near.bind fun next => accept.bind fun more => .pure

theorem mapM {item each : α → Parse β} (near : ∀ value, Local cut (item value) (each value))
    (values : List α) : Local cut (values.mapM item) (values.mapM each) := by
  induction values with
  | nil => exact .pure
  | cons value values ih =>
      rw [List.mapM_cons, List.mapM_cons]
      exact (near value).bind fun _ => ih.bind fun _ => .pure

theorem forM {item each : α → Parse PUnit} (near : ∀ value, Local cut (item value) (each value))
    (values : List α) : Local cut (values.forM item) (values.forM each) := by
  induction values with
  | nil => exact .pure
  | cons value values ih => exact (near value).bind fun _ => ih

theorem foldrM {step each : α → β → Parse β} (near : ∀ item value, Local cut (step item value)
    (each item value)) (value : β) (items : List α) :
    Local cut (items.foldrM step value) (items.foldrM each value) := by
  induction items with
  | nil => exact .pure
  | cons item items ih =>
      rw [List.foldrM_cons, List.foldrM_cons]
      exact ih.bind fun _ => near item _

/-! ## Going back -/

/-- What is read elsewhere ends at a token, so it is in front of the cut; the reader comes back
to where it was. -/
theorem visit {place : Nat} {context : String} (near : Local cut one other)
    (inner : kind ≠ .eof) :
    Local cut
      (do
        let resume ← Parse.position
        Parse.moveTo place
        let found ← one
        Parse.expect kind context
        Parse.moveTo resume
        return found)
      (do
        let resume ← Parse.position
        Parse.moveTo place
        let found ← other
        Parse.expect kind context
        Parse.moveTo resume
        return found) := by
  intro s value s' run
  obtain ⟨resume, _, looked, rest⟩ := bind_ok run
  cases looked
  obtain ⟨_, moved, goes, rest⟩ := bind_ok rest
  obtain ⟨reached, rfl⟩ := moveTo_ok goes
  obtain ⟨found, left, ran, rest⟩ := bind_ok rest
  obtain ⟨_, closed, closes, rest⟩ := bind_ok rest
  obtain ⟨_, back, returns, done⟩ := bind_ok rest
  obtain ⟨within, rfl⟩ := moveTo_ok returns
  obtain ⟨rfl, rfl⟩ := pure_ok done
  refine ⟨Nat.le_refl _, fun _ => ?_⟩
  have size := cut.size
  have longer := cut.longer
  have ends := expect_ok inner closes
  have before : left.position < cut.last :=
    cut.lt_of_kind ((Nat.lt_succ_self _).trans ends.2.2) (ends.1 ▸ inner)
  have returns : Parse.moveTo s.position cut.more closed = _ := moveTo_apply (by omega) _
  change (Parse.moveTo place >>= fun _ => other >>= fun found =>
    Parse.expect kind context >>= fun _ => Parse.moveTo s.position >>= fun _ =>
      Pure.pure found) cut.more s = _
  rw [bind_of_ok (moveTo_apply (by omega) _), bind_of_ok ((near _ _ _ ran).2 before),
    bind_of_ok ((cut.expect_eq before).trans closes), bind_of_ok returns]
  rfl

end Local

/-! ## Looking ahead -/

namespace LocalAt

variable {one other : Parse α} {next following : α → Parse β}

theorem of_local (near : Local cut one other) : LocalAt cut kind one other :=
  fun s value s' _ run => near s value s' run

/-- The state is only looked at. -/
theorem look {reading : Parse α} (observes : Observes reading) (near : Local cut reading reading)
    (rest : ∀ value, LocalAt cut kind (next value) (following value)) :
    LocalAt cut kind (reading >>= next) (reading >>= following) := by
  intro s value s' there run
  obtain ⟨found, middle, looked, done⟩ := bind_ok run
  obtain rfl := observes _ _ _ _ looked
  obtain ⟨le, same⟩ := rest found middle value s' there done
  refine ⟨le, fun inside => ?_⟩
  rw [bind_of_ok ((near middle found middle looked).2 (le.trans_lt inside))]
  exact same inside

/-- The token behind the current one makes a difference only if the current one cannot end a
declaration. -/
theorem peekNext {next following : Kind → Parse β}
    (alike : kind.closes = true → ∀ one other, next one = next other)
    (rest : ∀ behind, LocalAt cut kind (next behind) (following behind)) :
    LocalAt cut kind (Parse.peekNext >>= next) (Parse.peekNext >>= following) := by
  intro s value s' there run
  have opened (tokens : Tokens) (next : Kind → Parse β) :
      (Parse.peekNext >>= next) tokens s = next (tokens.kind (s.position + 1)) tokens s := rfl
  rw [opened] at run ⊢
  obtain ⟨le, -⟩ := rest _ s value s' there run
  refine ⟨le, fun inside => ?_⟩
  cases closes : kind.closes with
  | true =>
      rw [alike closes _ (cut.more.kind (s.position + 1))] at run
      exact (rest _ s value s' there run).2 inside
  | false =>
      rw [cut.kind_eq (cut.next_lt (le.trans_lt inside) (there ▸ closes))]
      exact (rest _ s value s' there run).2 inside

end LocalAt

namespace Local

/-- The kind of the current token is known from here on. -/
theorem peekFrom {next following : Kind → Parse β}
    (rest : ∀ kind, LocalAt cut kind (next kind) (following kind)) :
    Local cut (Parse.peek >>= next) (Parse.peek >>= following) := by
  intro s value s' run
  obtain ⟨found, middle, looked, done⟩ := bind_ok run
  obtain ⟨there, rfl, -⟩ := peek_ok looked
  obtain ⟨le, same⟩ := rest found middle value s' there.symm done
  refine ⟨le, fun inside => ?_⟩
  rw [bind_of_ok ((peek middle found middle looked).2 (le.trans_lt inside))]
  exact same inside

theorem at?From {wanted : Kind} {next following : Bool → Parse β}
    (rest : ∀ kind, LocalAt cut kind (next (decide (kind = wanted)))
      (following (decide (kind = wanted)))) :
    Local cut (Parse.at? wanted >>= next) (Parse.at? wanted >>= following) := by
  rw [Parse.at?, bind_assoc, bind_assoc]
  exact peekFrom fun kind => by
    rw [pure_bind, pure_bind]
    exact rest kind

end Local

/-! ## Finishing -/

namespace Settles

variable {one other : Parse α} {next following : α → Parse β}

theorem pure {value : α} : Settles cut (Pure.pure value) (Pure.pure value) := by
  intro s found s' _ _ run
  obtain ⟨rfl, rfl⟩ := pure_ok run
  exact ⟨rfl, rfl⟩

theorem bind (first : Settles cut one other)
    (rest : ∀ value, Settles cut (next value) (following value)) :
    Settles cut (one >>= next) (other >>= following) := by
  intro s value s' some inside run
  obtain ⟨found, middle, ran, done⟩ := bind_ok run
  obtain ⟨stays, same⟩ := first s found middle some inside ran
  obtain ⟨rests, ends⟩ := rest found middle value s' (stays ▸ some) (stays ▸ inside) done
  refine ⟨rests.trans stays, ?_⟩
  rw [bind_of_ok same]
  exact ends

theorem finishBefore : Settles cut Parse.finishBefore Parse.finishBefore := by
  intro s value s' some inside run
  have opened (tokens : Tokens) : Parse.finishBefore tokens s =
      (do return (← Parse.tokenAt (s.position - 1)).finish : Parse Location) tokens s := rfl
  rw [opened] at run ⊢
  obtain ⟨found, middle, looked, done⟩ := bind_ok run
  obtain rfl := tokenAt_observes _ _ _ _ looked
  obtain ⟨rfl, rfl⟩ := pure_ok done
  refine ⟨rfl, ?_⟩
  rw [bind_of_ok ((cut.tokenAt_eq (by omega) _).trans looked)]
  rfl

theorem spanFrom {start : Location} : Settles cut (Parse.spanFrom start) (Parse.spanFrom start) :=
  finishBefore.bind fun _ => .pure

theorem add {ι : Type} {insert : Arenas → ι × Arenas} :
    Settles cut (Parse.add insert) (Parse.add insert) :=
  fun _ _ _ _ _ run => ⟨by rw [(add_ok run).2], run⟩

end Settles

namespace Finishes

variable {one other : Parse α} {next following : α → Parse β}

theorem near (finishes : Finishes cut one other) : Local cut one other := by
  intro s value s' run
  obtain ⟨further, -, same⟩ := finishes s value s' run
  exact ⟨further.le, fun _ => same⟩

theorem fail {cause : Cause} : Finishes cut (Parse.fail cause) other := by
  intro s value s' run
  cases run

theorem expect {context : String} (inner : kind ≠ .eof) :
    Finishes cut (Parse.expect kind context) (Parse.expect kind context) := by
  intro s value s' run
  have token := expect_ok inner run
  have before : s.position < cut.last :=
    cut.lt_of_kind ((Nat.lt_succ_self _).trans token.2.2) (token.1 ▸ inner)
  refine ⟨?_, ?_, (cut.expect_eq before).trans run⟩
  · rw [token.2.1]
    exact Nat.lt_succ_self _
  · rw [token.2.1]
    exact before

theorem bind (first : Local cut one other) (rest : ∀ value, Finishes cut (next value)
    (following value)) : Finishes cut (one >>= next) (other >>= following) := by
  intro s value s' run
  obtain ⟨found, middle, ran, done⟩ := bind_ok run
  obtain ⟨le, same⟩ := first s found middle ran
  obtain ⟨further, inside, ends⟩ := rest found middle value s' done
  refine ⟨le.trans_lt further, inside, ?_⟩
  rw [bind_of_ok (same (further.trans_le inside))]
  exact ends

theorem settle (first : Finishes cut one other) (rest : ∀ value, Settles cut (next value)
    (following value)) : Finishes cut (one >>= next) (other >>= following) := by
  intro s value s' run
  obtain ⟨found, middle, ran, done⟩ := bind_ok run
  obtain ⟨further, inside, same⟩ := first s found middle ran
  obtain ⟨stays, ends⟩ := rest found middle value s' (Nat.zero_lt_of_lt further) inside done
  rw [bind_of_ok same]
  exact ⟨stays ▸ further, stays ▸ inside, ends⟩

theorem inScope (finishes : Finishes cut one other) :
    Finishes cut (Parse.inScope one) (Parse.inScope other) := by
  intro s value s' run
  obtain ⟨middle, ran, rfl⟩ := inScope_ok run
  obtain ⟨further, inside, same⟩ :=
    finishes { s with scopes := {} :: s.scopes } value middle ran
  exact ⟨further, inside, inScope_of_ok same⟩

/-- The token is the last one, or others follow. -/
theorem accept {next following : Bool → Parse β} (inner : kind ≠ .eof)
    (taken : Settles cut (next true) (following true))
    (passed : Finishes cut (next false) (following false)) :
    Finishes cut (Parse.accept kind >>= next) (Parse.accept kind >>= following) := by
  intro s value s' run
  obtain ⟨found, middle, accepts, done⟩ := bind_ok run
  cases found with
  | true =>
      obtain ⟨there, same⟩ := accept_ok inner accepts
      have before : s.position < cut.last := by
        refine cut.lt_of_kind ?_ (there ▸ inner)
        obtain ⟨kind, _, looked, -⟩ := bind_ok accepts
        exact (peek_ok looked).2.2
      rw [bind_of_ok ((cut.accept_eq before).trans accepts)]
      subst same
      obtain ⟨stays, ends⟩ :=
        taken { s with position := s.position + 1 } value s' (Nat.succ_pos _) before done
      rw [stays]
      exact ⟨Nat.lt_succ_self _, before, ends⟩
  | false =>
      obtain ⟨-, rfl⟩ := accept_ok inner accepts
      obtain ⟨further, inside, ends⟩ := passed middle value s' done
      rw [bind_of_ok ((cut.accept_eq (further.trans_le inside)).trans accepts)]
      exact ⟨further, inside, ends⟩

end Finishes

end SyntaxGraph.Grammar

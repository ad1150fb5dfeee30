import SyntaxGraph.Grammar.TranslationUnit
import SyntaxGraph.Proofs.Grammar.Runs

/-!
# Where external declarations end

The external declarations of a file go on up to the end of the file, and each of them ends with
a semicolon or with the closing brace of a function body.
-/

set_option autoImplicit false

namespace SyntaxGraph

/-- A mark that an external declaration may end with. -/
def Token.Kind.closes : Token.Kind → Bool
  | .punctuator .semicolon | .punctuator .braceClose => true
  | _ => false

namespace Grammar

open Token (Kind Keyword Punctuator Ended)

variable {α β : Type} {kind : Kind} {tokens : Tokens} {rules : Rules} {s s' : State}
  {units : List External}

/-- An external declaration, of which it is known that there is one. -/
def externalHere (rules : Rules) : Parse (Option External) := do
  let start ← Parse.here
  let decls ← declaration rules (functionDefinition rules)
  let finish ← Parse.finishBefore
  return some { decls, start, finish }

theorem external?_ok {next : Option External} (run : external? rules tokens s = .ok next s') :
    match next with
    | none => s' = s ∧ tokens.kind s.position = .eof
    | some unit => externalHere rules tokens s = .ok (some unit) s' ∧
        tokens.kind s.position ≠ .eof ∧ s.position < tokens.size := by
  obtain ⟨ended, middle, looked, rest⟩ := bind_ok run
  obtain ⟨rfl, rfl, inside⟩ := at?_ok looked
  by_cases last : tokens.kind middle.position = .eof
  · rw [if_pos (decide_eq_true last)] at rest
    obtain ⟨rfl, rfl⟩ := pure_ok rest
    exact ⟨rfl, last⟩
  · rw [if_neg (by simpa using last)] at rest
    cases next with
    | none =>
        obtain ⟨start, _, -, rest⟩ := bind_ok rest
        obtain ⟨decls, _, -, rest⟩ := bind_ok rest
        obtain ⟨finish, _, -, rest⟩ := bind_ok rest
        cases rest
    | some unit => exact ⟨rest, last, inside⟩

/-! ## The end of the file -/

theorem Tokens.end_of_kind {list : List Token} (ended : Ended list) {position : Nat}
    (inside : position < list.length) (last : Tokens.kind list.toArray position = .eof) :
    position + 1 = list.length := by
  obtain ⟨front, inner, place, rfl⟩ := ended
  rw [List.length_append, List.length_singleton] at inside ⊢
  rcases Nat.lt_or_ge position front.length with early | late
  · refine absurd ?_ (inner front[position] (List.getElem_mem early))
    simpa [Tokens.kind, List.getElem?_append_left early, early] using last
  · omega

theorem externals_end (collects : Collects tokens (external? rules) s units s') :
    tokens.kind s'.position = .eof := by
  induction collects with
  | stop last =>
      obtain ⟨rfl, ended⟩ := external?_ok last
      exact ended
  | next _ _ ih => exact ih

/-! ## Marks at the end -/

/-- The reading ends where it starts. -/
def Rests (reading : Parse α) : Prop :=
  ∀ tokens s value s', reading tokens s = .ok value s' → s'.position = s.position

/-- The reading ends behind a mark that an external declaration may end with. -/
def Shuts (reading : Parse α) : Prop :=
  ∀ tokens s value s', reading tokens s = .ok value s' →
    0 < s'.position ∧ (tokens.kind (s'.position - 1)).closes = true

namespace Rests

variable {reading : Parse α} {next : α → Parse β}

theorem pure {value : α} : Rests (Pure.pure value : Parse α) := by
  intro tokens s found s' run
  rw [(pure_ok run).2]

theorem look (observes : Observes reading) (rest : ∀ value, Rests (next value)) :
    Rests (reading >>= next) := by
  intro tokens s value s' run
  obtain ⟨found, done⟩ := look_then observes run
  exact rest found tokens s value s' done

theorem bind (resting : Rests reading) (rest : ∀ value, Rests (next value)) :
    Rests (reading >>= next) := by
  intro tokens s value s' run
  obtain ⟨found, middle, ran, done⟩ := bind_ok run
  exact (rest found tokens middle value s' done).trans (resting tokens s found middle ran)

theorem add {ι : Type} {insert : Arenas → ι × Arenas} : Rests (Parse.add insert) := by
  intro tokens s value s' run
  rw [(add_ok run).2]

end Rests

namespace Shuts

variable {reading : Parse α} {next : α → Parse β}

theorem fail {cause : Cause} : Shuts (Parse.fail cause : Parse α) := by
  intro tokens s value s' run
  cases run

theorem expect {context : String} (closes : kind.closes = true) :
    Shuts (Parse.expect kind context) := by
  intro tokens s value s' run
  have inner : kind ≠ .eof := by
    rintro rfl
    cases closes
  obtain ⟨there, rfl, -⟩ := expect_ok inner run
  exact ⟨Nat.succ_pos _, there ▸ closes⟩

theorem bind (rest : ∀ value, Shuts (next value)) : Shuts (reading >>= next) := by
  intro tokens s value s' run
  obtain ⟨found, middle, -, done⟩ := bind_ok run
  exact rest found tokens middle value s' done

theorem rest (shuts : Shuts reading) (rest : ∀ value, Rests (next value)) :
    Shuts (reading >>= next) := by
  intro tokens s value s' run
  obtain ⟨found, middle, ran, done⟩ := bind_ok run
  rw [rest found tokens middle value s' done]
  exact shuts tokens s found middle ran

theorem accept {next : Bool → Parse β} (closes : kind.closes = true)
    (taken : Rests (next true)) (passed : Shuts (next false)) :
    Shuts (Parse.accept kind >>= next) := by
  intro tokens s value s' run
  have inner : kind ≠ .eof := by
    rintro rfl
    cases closes
  obtain ⟨found, middle, accepts, done⟩ := bind_ok run
  cases found with
  | true =>
      obtain ⟨there, rfl⟩ := accept_ok inner accepts
      rw [taken tokens _ value s' done]
      exact ⟨Nat.succ_pos _, there ▸ closes⟩
  | false => exact passed tokens middle value s' done

theorem inScope (shuts : Shuts reading) : Shuts (Parse.inScope reading) := by
  intro tokens s value s' run
  obtain ⟨middle, ran, rfl⟩ := inScope_ok run
  exact shuts tokens _ value middle ran

end Shuts

theorem block_shuts : Shuts (block rules) :=
  .bind fun _ => .bind fun _ => .rest (.expect rfl) fun _ => .pure

theorem compoundStatement_shuts : Shuts (compoundStatement rules) :=
  .bind fun _ => .rest block_shuts fun _ => .look spanFrom_observes fun _ => .add

theorem functionDefinition_shuts {start : Location} {specifiers : Specifiers}
    {declarator : Declarator} : Shuts (functionDefinition rules start specifiers declarator) := by
  unfold functionDefinition
  split
  · exact .fail
  · refine .bind fun _ => .rest (.inScope ?_) fun body => .look spanFrom_observes fun _ => .add
    exact .bind fun _ => .bind fun _ => compoundStatement_shuts

theorem declaration_shuts {define : Location → Specifiers → Declarator → Parse DeclId}
    (shuts : ∀ start specifiers declarator, Shuts (define start specifiers declarator)) :
    Shuts (declaration rules define) := by
  refine .bind fun start => .bind fun specifiers => .accept rfl ?_ ?_
  · exact .look spanFrom_observes fun span => .bind .add fun _ => .pure
  · refine .bind fun first => .bind fun body => .bind fun node => ?_
    split
    · exact .rest (shuts start specifiers first) fun _ => .pure
    · exact .bind fun decl => .bind fun others => .rest (.expect rfl) fun _ => .pure

theorem externalHere_shuts : Shuts (externalHere rules) := by
  refine .bind fun start => .rest (declaration_shuts fun _ _ _ => functionDefinition_shuts) ?_
  exact fun decls => .look finishBefore_observes fun finish => .pure

/-- Either there are no external declarations, or the last one ends with such a mark. -/
theorem externals_shut (collects : Collects tokens (external? rules) s units s') :
    s' = s ∨ (tokens.kind (s'.position - 1)).closes = true := by
  induction collects with
  | stop last => exact .inl (external?_ok last).1
  | next one _ ih =>
      rcases ih with rfl | closes
      · exact .inr (externalHere_shuts _ _ _ _ (external?_ok one).1).2
      · exact .inr closes

end Grammar

end SyntaxGraph

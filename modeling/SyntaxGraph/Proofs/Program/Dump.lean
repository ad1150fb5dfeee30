import Mathlib.Data.List.Forall2
import SyntaxGraph.Proofs.Program.Owners
import SyntaxGraph.Proofs.Texts.TranslationUnit
import SyntaxGraph.Proofs.Token.Scanned
import SyntaxGraph.Proofs.Walk.Outline
import SyntaxGraph.Proofs.Walk.Recursion

/-!
# The lines of a dump

A dump is made of one row for each node that the walk enters, with a newline behind it.  Rows
are lines as long as no row has a newline in itself; then the lines are an outline, from which
the tree of the walk can be read back.  Names and numeric constants have no newlines, but the
text of a character constant goes on over the end of a line if a backslash is in front of it.
-/

set_option autoImplicit false

namespace SyntaxGraph

open Grammar
open Token (Kind Reading)

/-! ## Rows and lines -/

theorem length_splitOn {α : Type} [DecidableEq α] (value : α) (values : List α) :
    (values.splitOn value).length = values.count value + 1 := by
  induction values with
  | nil => rfl
  | cons first rest ih =>
      rw [List.splitOn_cons_eq_if_modifyHead, List.count_cons]
      by_cases separates : (first == value) = true
      · rw [if_pos separates, if_pos separates, List.length_cons, ih]
      · rw [if_neg separates, if_neg separates, List.length_modifyHead, ih]

/-- The rows one after the other, each with a newline behind it. -/
def written (rows : List (List Char)) : List Char := rows.flatMap (· ++ ['\n'])

theorem count_written (rows : List (List Char)) :
    (written rows).count '\n' = rows.length + rows.flatten.count '\n' := by
  induction rows with
  | nil => rfl
  | cons row rows ih =>
      have split : written (row :: rows) = row ++ ['\n'] ++ written rows := rfl
      rw [split, List.count_append, List.count_append, List.count_singleton_self, ih,
        List.length_cons, List.flatten_cons, List.count_append]
      omega

theorem splitOn_written {rows : List (List Char)} (plain : ∀ row ∈ rows, '\n' ∉ row) :
    (written rows).splitOn '\n' = rows ++ [[]] := by
  induction rows with
  | nil => rfl
  | cons row rows ih =>
      obtain ⟨first, others⟩ := List.forall_mem_cons.mp plain
      have split : written (row :: rows) = row ++ '\n' :: written rows :=
        List.append_assoc row ['\n'] (written rows)
      rw [split, List.splitOn_append_cons_self, List.splitOn_eq_singleton first, ih others]
      rfl

/-- There are as many lines as rows, and an empty one behind the last newline, only if no row
has a newline. -/
theorem length_splitOn_written {rows : List (List Char)} :
    ((written rows).splitOn '\n').length = rows.length + 1 ↔ ∀ row ∈ rows, '\n' ∉ row := by
  constructor
  · intro length row member newline
    rw [length_splitOn, count_written] at length
    have inside : '\n' ∈ rows.flatten := List.mem_flatten.mpr ⟨row, member, newline⟩
    have positive := List.count_pos_iff.mpr inside
    omega
  · intro plain
    rw [splitOn_written plain, List.length_append]
    rfl

namespace Outline

/-- The depth and the description that a line shows. -/
def entry (line : List Char) : Nat × String :=
  ((line.takeWhile (· = ' ')).length / 2, String.ofList (line.dropWhile (· = ' ')))

/-- What the lines of a text show, up to the last newline. -/
def ofText (text : String) : List (Nat × String) :=
  (text.toList.splitOn '\n').dropLast.map entry

end Outline

/-! ## Lines of nodes -/

theorem append_plain {front back : String} (frontPlain : '\n' ∉ front.toList)
    (backPlain : '\n' ∉ back.toList) : '\n' ∉ (front ++ back).toList := by
  rw [String.toList_append, List.mem_append, not_or]
  exact ⟨frontPlain, backPlain⟩

theorem newline_withDetail {first mark : String} {detail : Option String}
    (firstPlain : '\n' ∉ first.toList) (markPlain : '\n' ∉ mark.toList) :
    '\n' ∈ (withDetail first mark detail).toList ↔ ∃ text ∈ detail, '\n' ∈ text.toList := by
  cases detail with
  | none => simp [withDetail, firstPlain]
  | some text => simp [withDetail, firstPlain, markPlain]

theorem TypeKind.name_plain (kind : TypeKind) : '\n' ∉ kind.name.toList := by
  cases kind <;> decide

theorem BinaryOp.name_plain (op : BinaryOp) : '\n' ∉ op.name.toList := by
  cases op <;> decide

theorem UnaryOp.name_plain (op : UnaryOp) : '\n' ∉ op.name.toList := by
  cases op <;> decide

theorem MemberOp.name_plain (op : MemberOp) : '\n' ∉ op.name.toList := by
  cases op <;> decide

theorem Expr.operator_plain (expr : Expr) : '\n' ∉ expr.operator.toList := by
  unfold operator
  cases expr.form with
  | binary op => exact op.name_plain
  | unary op => exact op.name_plain
  | member op => exact op.name_plain
  | _ =>
      dsimp only
      decide

theorem Stmt.operator_plain (stmt : Stmt) : '\n' ∉ stmt.operator.toList := by
  unfold operator
  cases stmt.form <;> dsimp only <;> decide

theorem Label.operator_plain (label : Label) : '\n' ∉ label.operator.toList := by
  unfold operator
  cases label.form <;> dsimp only <;> decide

/-- No identifier has a newline. -/
def Grammar.Tokens.Plain (tokens : Tokens) : Prop :=
  ∀ name, tokens.Names name → '\n' ∉ name.toList

section Lines

variable {tokens : Tokens} (plain : tokens.Plain)

include plain

theorem Decl.line_plain {decl : Decl} (cites : decl.Cites tokens) : '\n' ∉ decl.line.toList := by
  unfold line
  split
  · decide
  · next named =>
      have cited : tokens.Names decl.name := cites fun empty => named (by simp [empty])
      exact append_plain (by decide) (plain _ cited)

theorem TypeNode.line_plain {type : TypeNode} (cites : type.Cites tokens) :
    '\n' ∉ type.line.toList := by
  have kind : '\n' ∉ s!"type: {type.kind.name}".toList :=
    append_plain (by decide) type.kind.name_plain
  rw [line, newline_withDetail kind (by decide)]
  rintro ⟨text, detail, newline⟩
  cases tag : type.tag with
  | some written =>
      rw [tag] at detail
      cases detail
      exact plain _ (cites.tag _ tag) newline
  | none =>
      rw [tag] at detail
      exact plain _ (cites.name _ detail) newline

/-- Only the text of a constant may have a newline. -/
theorem Expr.newline_line {expr : Expr} (cites : expr.form.Cites tokens) :
    '\n' ∈ expr.line.toList ↔ ∃ text, expr.form = .number text ∧ '\n' ∈ text.toList := by
  have operator : '\n' ∉ s!"expr: {expr.operator}".toList :=
    append_plain (by decide) expr.operator_plain
  rw [line, newline_withDetail operator (by decide), text]
  cases form : expr.form with
  | number text => simp
  | name text =>
      rw [form] at cites
      simpa using plain text cites
  | member op object field =>
      rw [form] at cites
      simpa using plain field cites
  | _ => simp

theorem Label.line_plain {label : Label} (cites : label.form.Cites tokens) :
    '\n' ∉ label.line.toList := by
  have operator : '\n' ∉ s!"label: {label.operator}".toList :=
    append_plain (by decide) label.operator_plain
  rw [line, newline_withDetail operator (by decide), name]
  rintro ⟨text, detail, newline⟩
  cases form : label.form with
  | named name =>
      rw [form] at cites detail
      cases detail
      exact plain _ cites newline
  | case value =>
      rw [form] at detail
      cases detail
  | default =>
      rw [form] at detail
      cases detail

end Lines

namespace Program

variable {p : Program} {file source : String} {node root : NodeRef} {line : String}

/-- A constant with a newline in its text. -/
inductive Broken (p : Program) : NodeRef → Prop
  | constant {id : ExprId} {expr : Expr} {text : String} (found : p.expr? id = some expr)
      (form : expr.form = .number text) (newline : '\n' ∈ text.toList) : Broken p (.expr id)

theorem broken_expr {id : ExprId} {expr : Expr} (found : p.expr? id = some expr) :
    p.Broken (.expr id) ↔ ∃ text, expr.form = .number text ∧ '\n' ∈ text.toList := by
  constructor
  · rintro ⟨there, form, newline⟩
    rw [found] at there
    cases there
    exact ⟨_, form, newline⟩
  · rintro ⟨text, form, newline⟩
    exact .constant found form newline

theorem newline_line? {tokens : Tokens} (plain : tokens.Plain) (cite : p.arenas.Cite tokens)
    (found : p.line? node = some line) : '\n' ∈ line.toList ↔ p.Broken node := by
  cases node with
  | program =>
      cases found
      exact iff_of_false (by decide) (fun broken => nomatch broken)
  | decl id =>
      obtain ⟨decl, there, rfl⟩ := Option.map_eq_some_iff.mp found
      have plain := decl.line_plain plain (cite.decls decl (Array.mem_of_getElem? there))
      exact iff_of_false plain (fun broken => nomatch broken)
  | type id =>
      obtain ⟨type, there, rfl⟩ := Option.map_eq_some_iff.mp found
      have plain := type.line_plain plain (cite.types type (Array.mem_of_getElem? there))
      exact iff_of_false plain (fun broken => nomatch broken)
  | expr id =>
      obtain ⟨expr, there, rfl⟩ := Option.map_eq_some_iff.mp found
      rw [broken_expr there]
      exact Expr.newline_line plain (cite.exprs expr (Array.mem_of_getElem? there))
  | stmt id =>
      obtain ⟨stmt, there, rfl⟩ := Option.map_eq_some_iff.mp found
      have plain : '\n' ∉ stmt.line.toList := append_plain (by decide) stmt.operator_plain
      exact iff_of_false plain (fun broken => nomatch broken)
  | init id =>
      obtain ⟨init, there, rfl⟩ := Option.map_eq_some_iff.mp found
      exact iff_of_false (by decide) (fun broken => nomatch broken)
  | label id =>
      obtain ⟨label, there, rfl⟩ := Option.map_eq_some_iff.mp found
      have plain := label.line_plain plain (cite.labels label (Array.mem_of_getElem? there))
      exact iff_of_false plain (fun broken => nomatch broken)

/-! ## Indentation -/

/-- The text begins with something else than a blank. -/
def Unindented (text : String) : Prop := ∃ c ∈ text.toList.head?, c ≠ ' '

theorem Unindented.append {front : String} (unindented : Unindented front) (back : String) :
    Unindented (front ++ back) := by
  obtain ⟨c, begins, other⟩ := unindented
  refine ⟨c, ?_, other⟩
  rw [String.toList_append, List.head?_append, Option.mem_def.mp begins]
  rfl

theorem Unindented.withDetail {first : String} (unindented : Unindented first) (mark : String)
    (detail : Option String) : Unindented (withDetail first mark detail) := by
  cases detail with
  | none => exact unindented
  | some text => exact (unindented.append mark).append text

theorem line?_unindented (found : p.line? node = some line) : Unindented line := by
  cases node with
  | program =>
      cases found
      exact ⟨'p', rfl, by decide⟩
  | decl id =>
      obtain ⟨decl, -, rfl⟩ := Option.map_eq_some_iff.mp found
      unfold Decl.line
      split
      · exact ⟨'d', rfl, by decide⟩
      · exact .append ⟨'d', rfl, by decide⟩ decl.name
  | type id =>
      obtain ⟨type, -, rfl⟩ := Option.map_eq_some_iff.mp found
      exact .withDetail (.append ⟨'t', rfl, by decide⟩ type.kind.name) " " _
  | expr id =>
      obtain ⟨expr, -, rfl⟩ := Option.map_eq_some_iff.mp found
      exact .withDetail (.append ⟨'e', rfl, by decide⟩ expr.operator) ", " _
  | stmt id =>
      obtain ⟨stmt, -, rfl⟩ := Option.map_eq_some_iff.mp found
      exact .append ⟨'s', rfl, by decide⟩ stmt.operator
  | init id =>
      obtain ⟨init, -, rfl⟩ := Option.map_eq_some_iff.mp found
      exact ⟨'i', rfl, by decide⟩
  | label id =>
      obtain ⟨label, -, rfl⟩ := Option.map_eq_some_iff.mp found
      exact .withDetail (.append ⟨'l', rfl, by decide⟩ label.operator) ", " _

/-- The row is made for the entry: its description, indented by two blanks a level. -/
def Tells (p : Program) (row : List Char) (entry : NodeRef × Nat) : Prop :=
  ∃ line, p.describe entry.1 = .ok line ∧ row = List.replicate (2 * entry.2) ' ' ++ line.toList

theorem indented_toList (depth : Nat) (line : String) :
    (indented depth line).toList = List.replicate (2 * depth) ' ' ++ line.toList ++ ['\n'] := by
  have indentation : (String.join (List.replicate depth "  ")).toList =
      List.replicate (2 * depth) ' ' := by
    rw [String.toList_join]
    induction depth with
    | zero => rfl
    | succ depth ih =>
        rw [List.replicate_succ, List.flatMap_cons, ih]
        rfl
  rw [indented, String.toList_append, String.toList_append, indentation]
  rfl

theorem describe_of_line? (found : p.line? node = some line) : p.describe node = .ok line := by
  rw [describe, found]

theorem line?_of_describe (described : p.describe node = .ok line) : p.line? node = some line := by
  unfold describe at described
  split at described
  · next found =>
      cases described
      exact found
  · cases described

/-- A dump is made of rows, one for each node that the walk enters. -/
theorem Closed.dumpFrom_rows (closed : p.Closed) (owned : p.owns root = true) :
    ∃ events text rows, p.walk root = .ok events ∧ Walk.Visits p root events ∧
      p.dumpFrom root = .ok text ∧ text.toList = written rows ∧
      List.Forall₂ p.Tells rows (entered events) := by
  obtain ⟨walked, visits⟩ := closed.trace_visits owned
  refine ⟨(p.trace root).events, _, (entered (p.trace root).events).map fun entry =>
    List.replicate (2 * entry.2) ' ' ++ ((p.line? entry.1).getD "").toList,
    walked, visits, closed.dumpFrom_eq owned, ?_, ?_⟩
  · rw [String.toList_join, List.flatMap_map, written, List.flatMap_map]
    simp only [indented_toList]
  · rw [List.forall₂_map_left_iff, List.forall₂_same]
    intro entry member
    obtain ⟨line, found⟩ := closed.line?_entered owned entry member
    exact ⟨line, describe_of_line? found, by rw [found]; rfl⟩

/-! ## One line for each node -/

/-- Up to its last newline the text has one line for each entry, which is made for it. -/
def OneLineEach (p : Program) (entries : List (NodeRef × Nat)) (text : String) : Prop :=
  ∃ lines, text.toList.splitOn '\n' = lines ++ [[]] ∧ List.Forall₂ p.Tells lines entries

theorem OneLineEach.length {entries : List (NodeRef × Nat)} {text : String}
    (each : p.OneLineEach entries text) :
    (text.toList.splitOn '\n').length = entries.length + 1 := by
  obtain ⟨lines, split, tells⟩ := each
  rw [split, List.length_append, tells.length_eq]
  rfl

section Rows

variable {rows : List (List Char)} {entries : List (NodeRef × Nat)}

theorem newline_of_tells {tokens : Tokens} (plain : tokens.Plain) (cite : p.arenas.Cite tokens)
    {row : List Char} {entry : NodeRef × Nat} (tells : p.Tells row entry) :
    '\n' ∈ row ↔ p.Broken entry.1 := by
  obtain ⟨line, described, rfl⟩ := tells
  rw [← newline_line? plain cite (line?_of_describe described), List.mem_append]
  simp

theorem plain_rows_iff {tokens : Tokens} (plain : tokens.Plain) (cite : p.arenas.Cite tokens)
    (tells : List.Forall₂ p.Tells rows entries) :
    (∀ row ∈ rows, '\n' ∉ row) ↔ ∀ entry ∈ entries, ¬p.Broken entry.1 := by
  induction tells with
  | nil => simp
  | cons first rest ih =>
      rw [List.forall_mem_cons, List.forall_mem_cons, newline_of_tells plain cite first, ih]

/-- Rows without newlines are the lines, and any other rows are too few of them. -/
theorem oneLineEach_iff {text : String} (made : text.toList = written rows)
    (tells : List.Forall₂ p.Tells rows entries) :
    p.OneLineEach entries text ↔ ∀ row ∈ rows, '\n' ∉ row := by
  constructor
  · intro each
    rw [← length_splitOn_written, ← made, tells.length_eq]
    exact each.length
  · intro plain
    exact ⟨rows, by rw [made, splitOn_written plain], tells⟩

end Rows

/-! ## Reading the tree back -/

/-- What the text shows of a walk: how deep each node lies and its description, and so the tree
of the walk, which has the edges of the program. -/
structure Shows (p : Program) (root : NodeRef) (events : Array Event) (text : String) : Prop where
  entries : List.Forall₂ (fun shown entry => shown.1 = entry.2 ∧ p.describe entry.1 = .ok shown.2)
    (Outline.ofText text) (entered events)
  tree : Outline.parents ((Outline.ofText text).map Prod.fst) = Walk.openers events
  edges : List.Forall₂ (Walk.Hangs p root ((entered events).map Prod.fst))
    ((entered events).map Prod.fst) (Walk.openers events)

theorem entry_of_tells {row : List Char} {entry : NodeRef × Nat} (tells : p.Tells row entry) :
    (Outline.entry row).1 = entry.2 ∧ p.describe entry.1 = .ok (Outline.entry row).2 := by
  obtain ⟨line, described, rfl⟩ := tells
  obtain ⟨c, begins, other⟩ := line?_unindented (line?_of_describe described)
  obtain ⟨rest, split⟩ : ∃ rest, line.toList = c :: rest := List.head?_eq_some_iff.mp begins
  have blanks : ∀ d ∈ List.replicate (2 * entry.2) ' ', decide (d = ' ') = true :=
    fun d member => decide_eq_true (List.eq_of_mem_replicate member)
  have front : line.toList.takeWhile (· = ' ') = [] := by
    rw [split, List.takeWhile_cons_of_neg (by simpa using other)]
  have behind : line.toList.dropWhile (· = ' ') = line.toList := by
    rw [split, List.dropWhile_cons_of_neg (by simpa using other)]
  constructor
  · rw [Outline.entry, List.takeWhile_append_of_pos blanks, front, List.append_nil,
      List.length_replicate]
    omega
  · rw [Outline.entry, List.dropWhile_append_of_pos blanks, behind, String.ofList_toList]
    exact described

theorem OneLineEach.shows {events : Array Event} {text : String}
    (lines : p.OneLineEach (entered events) text) (visits : Walk.Visits p root events) :
    p.Shows root events text := by
  obtain ⟨lines, split, tells⟩ := lines
  have outline : Outline.ofText text = lines.map Outline.entry := by
    rw [Outline.ofText, split, List.dropLast_concat]
  have entries : List.Forall₂ (fun shown entry =>
      shown.1 = entry.2 ∧ p.describe entry.1 = .ok shown.2)
      (Outline.ofText text) (entered events) := by
    rw [outline, List.forall₂_map_left_iff]
    exact tells.imp fun _ _ => entry_of_tells
  have depths : (Outline.ofText text).map Prod.fst = (entered events).map Prod.snd := by
    rw [← List.forall₂_eq_eq_eq, List.forall₂_map_left_iff, List.forall₂_map_right_iff]
    exact entries.imp fun _ _ => And.left
  obtain ⟨tree, edges⟩ := visits.openers_eq
  exact ⟨entries, by rw [depths, tree], edges⟩

/-! ## Programs that have been read -/

theorem contained_of_source {kind : Kind} {source : String}
    (member : kind ∈ Tokens.kinds (Reading.ofSource source).tokens.toArray) : kind.Contained := by
  obtain ⟨token, inside, rfl⟩ := List.mem_map.mp member
  by_cases ending : token.kind = .eof
  · rw [ending]
    trivial
  · obtain ⟨offset, first, rest, lexeme, here⟩ := Reading.ofSource_scanned token inside ending
    exact here.contained

theorem plain_of_source (source : String) :
    Tokens.Plain (Reading.ofSource source).tokens.toArray :=
  fun _ names => contained_of_source names

/-- A constant with a newline has the text of a character constant of the source. -/
theorem character_of_broken (parsed : read file source = .ok p) (broken : p.Broken node) :
    ∃ text, .character text ∈ (Reading.ofSource source).tokens.map Token.kind ∧
      p.describe node = .ok ("expr: Number, " ++ text) ∧ '\n' ∈ text.toList ∧
      Token.Escaped text.toList := by
  cases broken with
  | @constant id expr text found form newline =>
      have cites : expr.form.Cites (Reading.ofSource source).tokens.toArray :=
        (cite_of_read parsed).exprs expr (Array.mem_of_getElem? found)
      rw [form] at cites
      have looked : p.line? (.expr id) = some expr.line := congrArg (Option.map Expr.line) found
      have line : expr.line = "expr: Number, " ++ text := by
        rw [Expr.line, Expr.operator, Expr.text, form]
        rfl
      rw [line] at looked
      rcases cites with number | character
      · exact absurd newline (contained_of_source number)
      · exact ⟨text, character, describe_of_line? looked, newline, contained_of_source character⟩

/-- The dump of a program that has been read has a row for each node that the walk enters.  It
has one line for each of them if and only if none of them is a character constant that goes on
over the end of a line, and then the tree of the walk can be read back from the indentation;
otherwise the newlines in the rows make more lines of them. -/
theorem read_dump (parsed : read file source = .ok p) (owned : p.owns root = true) :
    ∃ events text, p.walk root = .ok events ∧ p.dumpFrom root = .ok text ∧
      (∃ rows, text.toList = written rows ∧ List.Forall₂ p.Tells rows (entered events) ∧
        (text.toList.splitOn '\n').length =
          (entered events).length + rows.flatten.count '\n' + 1) ∧
      (p.OneLineEach (entered events) text ↔ ∀ entry ∈ entered events, ¬p.Broken entry.1) ∧
      ((text.toList.splitOn '\n').length = (entered events).length + 1 ↔
        ∀ entry ∈ entered events, ¬p.Broken entry.1) ∧
      (∀ node, p.Broken node →
        ∃ text, .character text ∈ (Reading.ofSource source).tokens.map Token.kind ∧
          p.describe node = .ok ("expr: Number, " ++ text) ∧ '\n' ∈ text.toList ∧
          Token.Escaped text.toList) ∧
      (p.OneLineEach (entered events) text → p.Shows root events text) := by
  have closed : p.Closed := closed_of_read parsed
  obtain ⟨events, text, rows, walked, visits, dumped, made, tells⟩ := closed.dumpFrom_rows owned
  have plain := plain_rows_iff (plain_of_source source) (cite_of_read parsed) tells
  have count : (text.toList.splitOn '\n').length =
      (entered events).length + rows.flatten.count '\n' + 1 := by
    rw [made, length_splitOn, count_written, tells.length_eq]
  refine ⟨events, text, walked, dumped, ⟨rows, made, tells, count⟩, ?_, ?_, ?_, ?_⟩
  · rw [oneLineEach_iff made tells, plain]
  · rw [made, ← tells.length_eq, length_splitOn_written, plain]
  · exact fun node broken => character_of_broken parsed broken
  · exact fun lines => lines.shows visits

theorem unbroken_of_texts
    (plain : ∀ expr ∈ p.arenas.exprs, ∀ text ∈ expr.text, '\n' ∉ text.toList) :
    ¬p.Broken node := by
  rintro ⟨found, form, newline⟩
  refine plain _ (Array.mem_of_getElem? found) _ ?_ newline
  rw [Expr.text, form]
  rfl

/-- A character constant that has no newline in it, next to a name and a member access. -/
def memberSource : String :=
  "struct item \x7b int count; \x7d item;\n" ++
    "char next(int n) \x7b return n ? '\\n' : item.count; \x7d\n"

theorem read_dump_memberSource :
    ∃ p events text, read "item.c" memberSource = .ok p ∧ p.owns (.decl ⟨3⟩) = true ∧
      p.walk (.decl ⟨3⟩) = .ok events ∧ p.dumpFrom (.decl ⟨3⟩) = .ok text ∧
      p.OneLineEach (entered events) text ∧ p.Shows (.decl ⟨3⟩) events text := by
  have shape : (read "item.c" memberSource).toOption.map (fun p => (p.owns (.decl ⟨3⟩),
      p.arenas.exprs.toList.all fun expr => expr.text.all fun text => '\n' ∉ text.toList)) =
      some (true, true) := by
    decide +kernel
  obtain ⟨p, parsed, seen⟩ := exists_read_of_map shape
  obtain ⟨owned, plain⟩ := Prod.mk.inj seen
  obtain ⟨events, text, walked, dumped, -, lines, -, -, shows⟩ := read_dump parsed owned
  have plain : ∀ expr ∈ p.arenas.exprs, ∀ text ∈ expr.text, '\n' ∉ text.toList := by
    intro expr member text detail
    have here := List.all_eq_true.mp plain expr (Array.mem_toList_iff.mpr member)
    rw [Option.mem_def.mp detail] at here
    exact of_decide_eq_true here
  have each := lines.mpr fun _ _ => unbroken_of_texts plain
  exact ⟨p, events, text, parsed, owned, walked, dumped, each, shows each⟩

/-- The character constant goes on over the end of the line. -/
def continuedSource : String := "int c = '\\\n';"

/-- Five nodes are dumped to six lines, of which the last two tell of one node. -/
theorem read_continuedSource :
    ∃ p events text, read "c.c" continuedSource = .ok p ∧ p.walk .program = .ok events ∧
      p.dumpFrom .program = .ok text ∧ (entered events).length = 5 ∧
      text = "program\n  decl: c\n    type: Int\n    init\n      expr: Number, '\\\n'\n" ∧
      ¬p.OneLineEach (entered events) text := by
  -- The walk with a stack ends by a measure and cannot be evaluated, but the recursion can.
  have shape : (read "c.c" continuedSource).toOption.map (fun p => (decide (p.arenas.slots < 6),
      (p.visitTrace 6 .program).map fun trace => ((entered trace.events).length,
        String.join ((entered trace.events).map fun entry =>
          indented entry.2 ((p.line? entry.1).getD ""))))) =
      some (true, some (5,
        "program\n  decl: c\n    type: Int\n    init\n      expr: Number, '\\\n'\n")) := by
    decide +kernel
  obtain ⟨p, parsed, seen⟩ := exists_read_of_map shape
  obtain ⟨enough, visited⟩ := Prod.mk.inj seen
  rw [visitTrace_of_slots p .program (of_decide_eq_true enough)] at visited
  obtain ⟨length, made⟩ := Prod.mk.inj (Option.some.inj visited)
  have closed : p.Closed := closed_of_read parsed
  refine ⟨p, (p.trace .program).events, _, parsed, (closed.trace_visits rfl).1,
    closed.dumpFrom_eq rfl, length, made, fun each => ?_⟩
  have lines := each.length
  rw [made, length, length_splitOn] at lines
  revert lines
  decide

end Program

end SyntaxGraph

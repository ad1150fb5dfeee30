import SyntaxGraph.Proofs.Program.Read
import SyntaxGraph.Proofs.Typedef.Statement

/-!
# Typedefs of a program

Every declaration that stands in a file, in a block or in a `for` statement is noted in a
chronicle of the reading, from the state in which reading starts to the one in which it
ends.  A `typedef` among them has no initializer; the innermost scope has its name as that
of a type when it is made, unless it is a function that has been defined, which may be
written `typedef` too and binds its name as that of an object.
-/

set_option autoImplicit false

namespace SyntaxGraph.Program

open Grammar
open Token (Reading)

variable {p : Program} {file source : String} {id : DeclId}

/-- The declaration stands in the file, in a block or in a `for` statement. -/
def Declares (p : Program) (id : DeclId) : Prop :=
  id ∈ p.decls ∨ ∃ place stmt, p.stmt? place = some stmt ∧ stmt.decl = some id

theorem declares_iff :
    p.Declares id ↔ id ∈ p.decls ∨ id ∈ p.arenas.stmts.toList.filterMap Stmt.decl := by
  refine or_congr Iff.rfl ⟨?_, fun member => ?_⟩
  · rintro ⟨place, stmt, found, same⟩
    have there : p.arenas.stmts[place.index]? = some stmt := found
    rw [← Array.getElem?_toList] at there
    exact List.mem_filterMap.mpr ⟨stmt, List.mem_of_getElem? there, same⟩
  · obtain ⟨stmt, inside, same⟩ := List.mem_filterMap.mp member
    obtain ⟨place, there⟩ := List.mem_iff_getElem?.mp inside
    exact ⟨⟨place⟩, stmt, Array.getElem?_toList.symm.trans there, same⟩

/-- What has been noted of a declaration is what the program has, but for comments. -/
theorem plain_of_noted {history : List Grammar.Event} {final : State} {node : Decl}
    {scopes : Scopes} (chronicle : Chronicle {} history final) (arenas : final.arenas = p.arenas)
    (noted : .declared id node scopes ∈ history) :
    ∃ decl, p.decl? id = some decl ∧ decl.plain = node.plain := by
  have kept := chronicle.decl?_plain noted
  rw [arenas] at kept
  exact Option.map_eq_some_iff.mp kept

section

variable {history : List Grammar.Event} {final : State} {decl : Decl}
  (chronicle : Chronicle {} history final) (arenas : final.arenas = p.arenas)
  (noted : ∀ id, p.Declares id ↔ ∃ decl scopes, .declared id decl scopes ∈ history)

include chronicle arenas noted

theorem noted_of_declares (declares : p.Declares id) (found : p.decl? id = some decl) :
    ∃ node scopes, .declared id node scopes ∈ history ∧ node.plain = decl.plain := by
  obtain ⟨node, scopes, member⟩ := (noted id).mp declares
  obtain ⟨other, again, same⟩ := plain_of_noted chronicle arenas member
  obtain rfl := Option.some.inj (found.symm.trans again)
  exact ⟨node, scopes, member, same.symm⟩

/-- A name of the log that is bound as that of a type is the name of a `typedef`. -/
theorem declares_of_logged (orderly : Orderly history) {name : String}
    (logged : .bound name .typedef id ∈ final.log) :
    ∃ decl, p.Declares id ∧ p.decl? id = some decl ∧
      decl.isTypedef = true ∧ decl.name = name ∧ decl.init = none ∧ decl.body = none := by
  obtain ⟨before, after, split⟩ := List.append_of_mem (chronicle.mem_log.mp logged)
  obtain ⟨node, scopes, rest, rfl, isTypedef, rfl, noInit, noBody⟩ := orderly.of_bound split
  have member : .declared id node scopes ∈ history := by simp [split]
  obtain ⟨decl, found, same⟩ := plain_of_noted chronicle arenas member
  have typedef : decl.plain.isTypedef = true := same ▸ isTypedef
  have name : decl.plain.name = node.plain.name := congrArg Decl.name same
  have init : decl.plain.init = none := same ▸ noInit
  have body : decl.plain.body = none := same ▸ noBody
  exact ⟨decl, (noted id).mpr ⟨node, scopes, member⟩, found, typedef, name, init, body⟩

/-- The log tells of every `typedef` that has a name and no body. -/
theorem logged_of_declares (orderly : Orderly history) (declares : p.Declares id)
    (found : p.decl? id = some decl) (isTypedef : decl.isTypedef = true) (named : decl.name ≠ "")
    (noBody : decl.body = none) : .bound decl.name .typedef id ∈ final.log := by
  obtain ⟨node, scopes, member, plain⟩ := noted_of_declares chronicle arenas noted declares found
  have typedef : node.plain.isTypedef = true := plain ▸ isTypedef
  have name : node.plain.name = decl.plain.name := congrArg Decl.name plain
  have body : node.plain.body = none := plain ▸ noBody
  have bound := orderly.bound_of_declared member typedef (name ▸ named) body
  exact chronicle.mem_log.mpr (name ▸ bound)

end

/-- Whatever a declarator or the definition of a function makes, a `typedef` with a name has
no initializer then, and its name is bound in the innermost scope.  What stands in a program
has been made so, if it has a name, and has been noted in a chronicle of the whole reading,
with the bindings of its log; and where a name is bound as that of a type, a `typedef` of this
name without an initializer and a body is made next.  So the log tells of such a binding if and
only if there is such a `typedef`, with the identity that was the next one then. -/
theorem read_typedefs (parsed : read file source = .ok p) :
    (∀ tokens id made, Creates tokens id made →
      ∃ decl, made.arenas.decl? id = some decl ∧ TypedefBound made.scopes decl) ∧
    ∃ final history, (Reading.ofSource source).parse = .ok p.decls final ∧
      final.arenas = p.arenas ∧ Chronicle {} history final ∧
      final.bindings = (history.filter Grammar.Event.isBinding).reverse ∧
      (∀ id, p.Declares id ↔ ∃ decl scopes, .declared id decl scopes ∈ history) ∧
      (∀ id decl, p.Declares id → p.decl? id = some decl → decl.name ≠ "" →
        ∃ made noted, Creates (Reading.ofSource source).tokens.toArray id made ∧
          made.arenas.decl? id = some noted ∧ .declared id noted made.scopes ∈ history ∧
          noted.plain = decl.plain ∧ TypedefBound made.scopes decl) ∧
      (∀ before name next after, history = before ++ .bound name .typedef next :: after →
        ∃ decl scopes rest, after = .declared next decl scopes :: rest ∧
          decl.isTypedef = true ∧ decl.name = name ∧ decl.init = none ∧ decl.body = none) ∧
      (∀ name next, .bound name .typedef next ∈ final.log →
        ∃ decl, p.Declares next ∧ p.decl? next = some decl ∧
          decl.isTypedef = true ∧ decl.name = name ∧ decl.init = none ∧ decl.body = none) ∧
      ∀ id decl, p.Declares id → p.decl? id = some decl → decl.isTypedef = true →
        decl.name ≠ "" → decl.body = none → .bound decl.name .typedef id ∈ final.log := by
  obtain ⟨final, run, arenas, -⟩ := parse_of_read parsed
  obtain ⟨history, placed, chronicled, made, origin⟩ :=
    translationUnit_tells {} p.decls final (List.cons_ne_nil _ _) run
  have noted (id : DeclId) :
      p.Declares id ↔ ∃ decl scopes, .declared id decl scopes ∈ history := by
    obtain ⟨stmts, grown, rfl⟩ := chronicled.placed
    have all : p.arenas.stmts.toList = stmts := arenas ▸ grown
    rw [declares_iff, all, ← mem_declared_iff]
    simpa using (origin id).symm
  have chronicle := chronicled.chronicle
  have orderly := chronicled.orderly
  refine ⟨fun _ _ _ creates => creates.typedefBound, final, history, run, arenas,
    chronicle, chronicle.bindings.trans (List.append_nil _), noted,
    fun id decl declares found named => ?_, fun _ _ _ _ split => orderly.of_bound split,
    fun _ _ logged => declares_of_logged chronicle arenas noted orderly logged,
    fun _ _ declares found => logged_of_declares chronicle arenas noted orderly declares found⟩
  obtain ⟨node, scopes, member, plain⟩ := noted_of_declares chronicle arenas noted declares found
  have name : node.plain.name = decl.plain.name := congrArg Decl.name plain
  obtain ⟨state, creates, rfl, there⟩ := made id node scopes member (name ▸ named)
  obtain ⟨other, again, bound⟩ := creates.typedefBound
  obtain rfl := Option.some.inj (there.symm.trans again)
  have boundPlain : TypedefBound state.scopes node.plain := bound
  rw [plain] at boundPlain
  exact ⟨state, node, creates, there, member, plain, boundPlain⟩

/-- A `typedef` in the file, one in a block and one in a `for` statement. -/
def localTypedefSource : String :=
  "typedef int T; T f(T p) \x7b typedef T U; for (typedef U V; ; ) ; \x7d"

theorem read_typedefs_localTypedefSource :
    ∃ (p : Program) (decl noted : Decl) (made final : State) (history : List Grammar.Event),
      read "t.c" localTypedefSource = .ok p ∧ p.Declares ⟨3⟩ ∧ p.decl? ⟨3⟩ = some decl ∧
      decl.name = "V" ∧ decl.isTypedef = true ∧ decl.init = none ∧ decl.body = none ∧
      Chronicle {} history final ∧ final.arenas = p.arenas ∧
      .declared ⟨3⟩ noted made.scopes ∈ history ∧ noted.plain = decl.plain ∧
      made.scopes.innerName? "V" = some .typedef ∧ .bound "V" .typedef ⟨3⟩ ∈ final.log := by
  have shape : (read "t.c" localTypedefSource).toOption.map (fun p =>
      ((p.stmt? ⟨2⟩).map Stmt.decl, (p.decl? ⟨3⟩).map fun decl =>
        (decl.name, decl.isTypedef, decl.body))) =
      some (some (some ⟨3⟩), some ("V", true, none)) := by
    decide +kernel
  obtain ⟨p, parsed, seen⟩ := exists_read_of_map shape
  obtain ⟨inside, shown⟩ := Prod.mk.inj seen
  obtain ⟨stmt, there, same⟩ := Option.map_eq_some_iff.mp inside
  obtain ⟨decl, found, fields⟩ := Option.map_eq_some_iff.mp shown
  obtain ⟨name, fields⟩ := Prod.mk.inj fields
  obtain ⟨isTypedef, noBody⟩ := Prod.mk.inj fields
  have declares : p.Declares ⟨3⟩ := .inr ⟨⟨2⟩, stmt, there, same⟩
  have named : decl.name ≠ "" := by
    rw [name]
    decide
  obtain ⟨-, final, history, -, arenas, chronicle, -, -, declared, -, -, logged⟩ :=
    read_typedefs parsed
  obtain ⟨made, noted, -, -, member, plain, bound⟩ := declared ⟨3⟩ decl declares found named
  obtain ⟨noInit, innermost⟩ := bound isTypedef named
  rw [name, noBody] at innermost
  have told := logged ⟨3⟩ decl declares found isTypedef named noBody
  rw [name] at told
  exact ⟨p, decl, noted, made, final, history, parsed, declares, found, name, isTypedef, noInit,
    noBody, chronicle, arenas, member, plain, innermost, told⟩

/-- The definition of a function that is written `typedef`. -/
def typedefBodySource : String := "typedef int f() \x7b \x7d"

theorem typedefBodySource_read :
    ∃ p decl, read "t.c" typedefBodySource = .ok p ∧ p.Declares ⟨0⟩ ∧ p.decl? ⟨0⟩ = some decl ∧
      decl.name = "f" ∧ decl.isTypedef = true ∧ decl.body = some ⟨0⟩ := by
  have shape : (read "t.c" typedefBodySource).toOption.map (fun p =>
      (p.decls, (p.decl? ⟨0⟩).map fun decl => (decl.name, decl.isTypedef, decl.body))) =
      some ([⟨0⟩], some ("f", true, some ⟨0⟩)) := by
    decide +kernel
  obtain ⟨p, parsed, seen⟩ := exists_read_of_map shape
  obtain ⟨decls, shown⟩ := Prod.mk.inj seen
  obtain ⟨decl, found, fields⟩ := Option.map_eq_some_iff.mp shown
  obtain ⟨name, fields⟩ := Prod.mk.inj fields
  obtain ⟨isTypedef, body⟩ := Prod.mk.inj fields
  exact ⟨p, decl, parsed, .inl (decls ▸ List.mem_singleton_self _), found, name, isTypedef, body⟩

end SyntaxGraph.Program

import SyntaxGraph.Proofs.Emission.Units
import SyntaxGraph.Proofs.Program.Bindings
import SyntaxGraph.Proofs.Walk.Unbound

/-!
# Routing

Routing is one binding after the other.  It stops at the first place where the declaration is
in a group already, be it from the beginning or since an earlier place; the declarations in
front of this place have then been put in the groups of the settings, and nothing else has
changed.  A program that has been routed is emitted as it was before.
-/

set_option autoImplicit false

namespace SyntaxGraph

namespace Program

variable {p : Program} {id : DeclId} {decl : Decl}

/-- The program with all declarations in no group. -/
def ungrouped (p : Program) : Program :=
  { p with arenas := { p.arenas with decls := p.arenas.decls.map Decl.unbound } }

theorem unbound_ungrouped (p : Program) : p.ungrouped.unbound = p.unbound := by
  simp [unbound, Arenas.unbound, ungrouped, Function.comp_def, Decl.unbound]

/-- There is the declaration, and it is in no group. -/
def IsFree (p : Program) (id : DeclId) : Prop := ∃ decl, p.decl? id = some decl ∧ decl.group = none

theorem decl?_of_owns (owned : p.owns (.decl id) = true) : ∃ decl, p.decl? id = some decl :=
  ⟨_, Array.getElem?_eq_getElem (of_decide_eq_true owned)⟩

theorem bind_group (found : p.decl? id = some decl) (name : String) :
    p.bind (.group id name) =
      if decl.group.isSome then .error (.alreadyBound (.group id name))
      else .ok (p.setDecl id { decl with group := some name }) := by
  simp only [bind, found]

end Program

namespace Emission

variable {config : Config} {p q : Program} {id : DeclId} {ids : List DeclId} {decl : Decl}

/-- Routing binds one group after the other, and keeps what it has bound if it stops. -/
theorem evolves_routeFrom (config : Config) (ids : List DeclId) (p : Program) :
    p.Evolves (routeFrom config p ids).1 := by
  induction ids generalizing p with
  | nil => exact .refl p
  | cons id rest ih =>
      rw [routeFrom]
      split
      · exact .refl p
      split
      · next bound accepted => exact (Program.fills_of_bind accepted).evolves.trans (ih bound)
      · exact .refl p

theorem evolves_route (config : Config) (p : Program) : p.Evolves (route config p).1 :=
  evolves_routeFrom config p.decls p

/-! ## Groups of the settings -/

/-- The program `q` is `p` with the given declarations in the groups that the settings give
them. -/
structure Grouped (config : Config) (p : Program) (ids : List DeclId) (q : Program) : Prop where
  grouped : ∀ id ∈ ids, ∃ decl, p.decl? id = some decl ∧
    q.decl? id = some { decl with group := some (config.groupFor decl.name) }
  others : ∀ id ∉ ids, q.decl? id = p.decl? id
  rest : q = { p with arenas := { p.arenas with decls := q.arenas.decls } }

theorem Grouped.nil (config : Config) (p : Program) : Grouped config p [] p :=
  ⟨by simp, fun _ _ => rfl, rfl⟩

/-- One declaration more, routed in front of the others. -/
theorem Grouped.cons (found : p.decl? id = some decl) (fresh : id ∉ ids)
    (later : Grouped config
      (p.setDecl id { decl with group := some (config.groupFor decl.name) }) ids q) :
    Grouped config p (id :: ids) q := by
  have other {other : DeclId} (different : other ≠ id) (changed : Decl) :
      (p.setDecl id changed).decl? other = p.decl? other := by
    rw [Program.decl?_setDecl found, if_neg different]
  constructor
  case grouped =>
    refine List.forall_mem_cons.mpr ⟨⟨decl, found, ?_⟩, fun other' member => ?_⟩
    · rw [later.others id fresh, Program.decl?_setDecl found, if_pos rfl]
    · obtain ⟨changed, there, grouped⟩ := later.grouped other' member
      rw [other (ne_of_mem_of_not_mem member fresh)] at there
      exact ⟨changed, there, grouped⟩
  case others =>
    intro other' absent
    obtain ⟨different, absent⟩ := not_or.mp (List.mem_cons.not.mp absent)
    rw [later.others other' absent, other different]
  case rest =>
    have rest := later.rest
    exact rest

theorem Grouped.outside (grouped : Grouped config p ids q) :
    q.file = p.file ∧ q.decls = p.decls := by
  rw [grouped.rest]
  exact ⟨rfl, rfl⟩

theorem Grouped.ungrouped (grouped : Grouped config p ids q) : q.ungrouped = p.ungrouped := by
  have decls : q.arenas.decls.map Decl.unbound = p.arenas.decls.map Decl.unbound := by
    refine Array.ext_getElem? fun index => ?_
    rw [Array.getElem?_map, Array.getElem?_map]
    change (q.decl? ⟨index⟩).map _ = (p.decl? ⟨index⟩).map _
    by_cases member : (⟨index⟩ : DeclId) ∈ ids
    · obtain ⟨decl, found, changed⟩ := grouped.grouped _ member
      rw [found, changed]
      rfl
    · rw [grouped.others _ member]
  rw [Program.ungrouped, grouped.rest, Program.ungrouped]
  simp only [decls]

/-! ## How far routing goes -/

theorem routeFrom_cons (found : p.decl? id = some decl) (rest : List DeclId) :
    routeFrom config p (id :: rest) =
      if decl.group.isSome then
        (p, some (.alreadyBound (.group id (config.groupFor decl.name))))
      else
        routeFrom config (p.setDecl id { decl with group := some (config.groupFor decl.name) })
          rest := by
  rw [routeFrom, found]
  simp only [Program.bind_group found]
  split
  · next accepted =>
      split at accepted
      · cases accepted
      · next free =>
          obtain rfl := Except.ok.inj accepted
          rw [if_neg free]
  · next refused =>
      split at refused
      · next taken =>
          obtain rfl := Except.error.inj refused
          rw [if_pos taken]
      · cases refused

/-- The declarations that routing puts in groups, and the one that stops it, if one does. -/
theorem routeFrom_prefix (config : Config)
    (there : ∀ id ∈ ids, ∃ decl, p.decl? id = some decl) :
    ∃ early, early.Nodup ∧ (∀ id ∈ early, p.IsFree id) ∧
      Grouped config p early (routeFrom config p ids).1 ∧
      (ids = early ∧ (routeFrom config p ids).2 = none ∨
        ∃ id late decl, ids = early ++ id :: late ∧ p.decl? id = some decl ∧
          (id ∈ early ∨ decl.group ≠ none) ∧
          (routeFrom config p ids).2 =
            some (.alreadyBound (.group id (config.groupFor decl.name)))) := by
  induction ids generalizing p with
  | nil => exact ⟨[], .nil, by simp, .nil config p, .inl ⟨rfl, rfl⟩⟩
  | cons id rest ih =>
      obtain ⟨decl, found⟩ := there id List.mem_cons_self
      rw [routeFrom_cons found]
      by_cases taken : decl.group.isSome
      · rw [if_pos taken]
        refine ⟨[], .nil, by simp, .nil config p, .inr ⟨id, rest, decl, rfl, found, .inr ?_, rfl⟩⟩
        exact Option.isSome_iff_ne_none.mp taken
      · rw [if_neg taken]
        have free : decl.group = none := by simpa using taken
        let routed := { decl with group := some (config.groupFor decl.name) }
        have changed (other : DeclId) : (p.setDecl id routed).decl? other =
            if other = id then some routed else p.decl? other :=
          Program.decl?_setDecl found routed other
        obtain ⟨early, distinct, frees, grouped, outcome⟩ := ih (p := p.setDecl id routed)
          fun other member => by
            rw [changed]
            split
            · exact ⟨routed, rfl⟩
            · exact there other (List.mem_cons_of_mem _ member)
        have fresh : id ∉ early := fun member => by
          obtain ⟨same, there, none⟩ := frees id member
          rw [changed, if_pos rfl] at there
          cases there
          cases none
        refine ⟨id :: early, List.nodup_cons.mpr ⟨fresh, distinct⟩,
          List.forall_mem_cons.mpr ⟨⟨decl, found, free⟩, fun other member => ?_⟩,
          grouped.cons found fresh, ?_⟩
        · obtain ⟨same, there, none⟩ := frees other member
          rw [changed, if_neg (ne_of_mem_of_not_mem member fresh)] at there
          exact ⟨same, there, none⟩
        · rcases outcome with ⟨rfl, ended⟩ | ⟨other, late, last, split, present, taken, ended⟩
          · exact .inl ⟨rfl, ended⟩
          · rw [changed] at present
            split at present
            · next same =>
                cases present
                exact .inr ⟨id, late, decl, by rw [split, same, List.cons_append], found,
                  .inl List.mem_cons_self, same ▸ ended⟩
            · exact .inr ⟨other, late, last, by rw [split, List.cons_append], present,
                taken.imp_left (List.mem_cons_of_mem _), ended⟩

theorem routeFrom_none_iff (config : Config)
    (there : ∀ id ∈ ids, ∃ decl, p.decl? id = some decl) :
    (routeFrom config p ids).2 = none ↔ ids.Nodup ∧ ∀ id ∈ ids, p.IsFree id := by
  obtain ⟨early, distinct, frees, -, ⟨rfl, ended⟩ | ⟨id, late, decl, rfl, found, taken, ended⟩⟩ :=
    routeFrom_prefix config there
  · exact iff_of_true ended ⟨distinct, frees⟩
  · refine iff_of_false (by simp [ended]) fun ⟨apart, frees⟩ => ?_
    rcases taken with again | grouped
    · exact (List.nodup_append.mp apart).2.2 id again id List.mem_cons_self rfl
    · obtain ⟨same, there, none⟩ := frees id (by simp)
      cases found.symm.trans there
      exact grouped none

/-! ## Emission of routed programs -/

/-- The renderer makes the same of programs that only differ in their groups. -/
def IgnoresGroups (render : Renderer) : Prop :=
  ∀ p q : Program, p.ungrouped = q.ungrouped → ∀ id, render p id = render q id

theorem ignoresGroups_renderDump : IgnoresGroups renderDump := by
  intro p q same id
  have bare : p.unbound = q.unbound := by rw [← p.unbound_ungrouped, same, q.unbound_ungrouped]
  rw [renderDump, (Program.walk_of_unbound bare (.decl id)).2, renderDump]

theorem emit_grouped {render : Renderer} (ignores : IgnoresGroups render)
    (frees : ∀ id ∈ p.decls, p.IsFree id) (grouped : Grouped config p p.decls q) :
    emit config render q = emit config render p := by
  obtain ⟨file, decls⟩ := grouped.outside
  refine emit_congr decls fun id listed units => ?_
  obtain ⟨decl, found, free⟩ := frees id listed
  obtain ⟨same, there, changed⟩ := grouped.grouped id listed
  cases found.symm.trans there
  simp only [emitOne, found, changed, item, unitKey, file, free, Option.getD_some,
    Option.getD_none, ignores q p grouped.ungrouped id]

/-- Routing succeeds exactly if no top-level declaration is in a group or listed twice, and then
it puts all of them in the groups of the settings, and emission stays as it was.  Otherwise it
stops at the first place where the declaration is in a group or has been listed before, having
put those in front of it in their groups. -/
theorem route_prefix (config : Config) (p : Program)
    (owned : ∀ id ∈ p.decls, p.owns (.decl id) = true) :
    ((route config p).2 = none ↔ p.decls.Nodup ∧ ∀ id ∈ p.decls, p.IsFree id) ∧
    ((route config p).2 = none → Grouped config p p.decls (route config p).1 ∧
      ∀ render : Renderer, IgnoresGroups render →
        emit config render (route config p).1 = emit config render p) ∧
    ∀ error, (route config p).2 = some error →
      ∃ early id late decl, p.decls = early ++ id :: late ∧ p.decl? id = some decl ∧
        (early.Nodup ∧ ∀ other ∈ early, p.IsFree other) ∧
        (id ∈ early ∨ decl.group ≠ none) ∧
        error = .alreadyBound (.group id (config.groupFor decl.name)) ∧
        error.message? =
          some s!"output group of {(NodeRef.decl id).describe} is already bound" ∧
        Grouped config p early (route config p).1 := by
  have there : ∀ id ∈ p.decls, ∃ decl, p.decl? id = some decl := fun id listed =>
    Program.decl?_of_owns (owned id listed)
  have succeeds := routeFrom_none_iff config there
  obtain ⟨early, distinct, frees, grouped, outcome⟩ := routeFrom_prefix config there
  refine ⟨succeeds, fun ended => ?_, fun error failed => ?_⟩
  · rcases outcome with ⟨rfl, -⟩ | ⟨_, _, _, _, _, _, stopped⟩
    · exact ⟨grouped, fun render ignores => emit_grouped ignores frees grouped⟩
    · cases ended.symm.trans stopped
  · rcases outcome with ⟨-, ended⟩ | ⟨id, late, decl, split, found, taken, stopped⟩
    · cases failed.symm.trans ended
    · obtain rfl := Option.some.inj (failed.symm.trans stopped)
      exact ⟨early, id, late, decl, split, found, ⟨distinct, frees⟩, taken, rfl, rfl, grouped⟩

def listedOnce : Program := { gathered with decls := [⟨1⟩, ⟨2⟩] }

def listedTwice : Program := { gathered with decls := [⟨1⟩, ⟨2⟩, ⟨1⟩] }

theorem route_prefix_listed :
    (∀ id ∈ listedOnce.decls, listedOnce.owns (.decl id) = true) ∧
      emit gathering renderDump (route gathering listedOnce).1 =
        emit gathering renderDump listedOnce ∧
      (∀ id ∈ listedTwice.decls, listedTwice.owns (.decl id) = true) ∧
      ∃ error, (route gathering listedTwice).2 = some error ∧
        error.message? = some "output group of Decl(DeclId(1)) is already bound" ∧
        Grouped gathering listedTwice [⟨1⟩, ⟨2⟩] (route gathering listedTwice).1 := by
  have once : ∀ id ∈ listedOnce.decls, listedOnce.owns (.decl id) = true := by decide +kernel
  have twice : ∀ id ∈ listedTwice.decls, listedTwice.owns (.decl id) = true := by decide +kernel
  have succeeds : (route gathering listedOnce).2 = none := by decide +kernel
  have fails : (route gathering listedTwice).2 = some (.alreadyBound (.group ⟨1⟩ "other")) := by
    decide +kernel
  obtain ⟨-, routed, -⟩ := route_prefix gathering listedOnce once
  obtain ⟨-, -, stopped⟩ := route_prefix gathering listedTwice twice
  obtain ⟨early, id, late, decl, split, found, -, taken, error, message, grouped⟩ :=
    stopped _ fails
  obtain rfl : id = ⟨1⟩ := by
    simp only [BindError.alreadyBound.injEq, Binding.group.injEq] at error
    exact error.1.symm
  have free : decl.group = none := by
    have bare : (listedTwice.decl? ⟨1⟩).map Decl.group = some none := by decide +kernel
    rw [found] at bare
    exact Option.some.inj bare
  refine ⟨once, (routed succeeds).2 renderDump ignoresGroups_renderDump, twice, _, fails,
    by decide +kernel, ?_⟩
  rcases early with _ | ⟨first, _ | ⟨second, _ | ⟨third, rest⟩⟩⟩
  · simp [free] at taken
  · cases split
  · cases split
    exact grouped
  · simp [listedTwice] at split

end Emission

end SyntaxGraph

import ScriptLang.Proofs.Addressing.Readability
import ScriptLang.Proofs.Places.Nodes

/-!
# Resolving, node by node

Resolving walks over a program with a stack of scopes, and stops at a fault.  At each node the stack is the list of
the scopes around its place, so what resolving does there can be told from the place alone: it fails, or it enters a
distance and may warn.

* `Node.fault?`, `Node.warning?`, `record` — what resolving does at a node, by the place;
* `Surrounds` — the scopes of the resolver are those around a place;
* `Checks` — a computation that does to the nodes what their places say, closed under the steps of resolving;
* `stmt_checks` — the theorem for statements, with one case for each form.
-/

namespace ScriptLang

open Resolving

variable {ι : Type}

/-- What makes a program unfit to run at a node: a return in no function, or an identifier that is read in the
initializer of the local variable or constant of its name. -/
def Node.fault? : Node ι × Place ι → Option ScopeError
  | (.return line, p) => if p.inFunction then none else some (.returnOutsideFunction line)
  | (.read .identifier use, p) => if p.initializes use.text then some (.ownInitializer use.text use.line) else none
  | _ => none

/-- What is doubtful about `this` and `super` at a node. -/
def Node.warning? : Node ι × Place ι → Option ScopeWarning
  | (.read .this use, p) => if p.inMethod then none else some (.thisOutsideMethod use.line)
  | (.read .super use, p) => if p.inSubclassMethod then none else some (.superOutsideSubclass use.line)
  | _ => none

/-- Whether a warning is about a `this` or `super` that has nothing to stand for. -/
def ScopeWarning.isMisplaced : ScopeWarning → Bool
  | thisOutsideMethod _ | superOutsideSubclass _ => true
  | redeclaration _ _ | inheritsFromItself _ _ => false

/-- A table of distances behind a node. -/
def record (locals : Locals) (n : Node OccurrenceId × Place OccurrenceId) : Locals :=
  match n.1.looksUp? with
  | none => locals
  | some (use, name) =>
    match n.2.distance? name with
    | none => locals
    | some depth => locals.insert use.id depth

variable {p p' p'' : Place OccurrenceId} {ns ms : List (Node OccurrenceId × Place OccurrenceId)}
  {scopes : List Scope} {region : Region}

/-! ### Regions -/

/-- The region says of a place whether it is in a function, in a method and in a method of a subclass. -/
structure Region.Suits (region : Region) (p : Place ι) : Prop where
  function : region = .topLevel ↔ p.inFunction = false
  this : region.allowsThis = p.inMethod
  super : region.allowsSuper = p.inSubclassMethod

namespace Region.Suits

variable {p q : Place ι}

lemma congr (h : region.Suits p) (hkinds : q.kinds = p.kinds) : region.Suits q := by
  have hmember : q.member? = p.member? := by rw [Place.member?_eq, Place.member?_eq, hkinds]
  refine ⟨h.function.trans ?_, h.this.trans ?_, h.super.trans ?_⟩
  · rw [Place.inFunction_eq, Place.inFunction_eq, hkinds]
  · rw [Place.inMethod, Place.inMethod, hmember]
  · rw [Place.inSubclassMethod, Place.inSubclassMethod, hmember]

lemma global : Region.topLevel.Suits (Place.global : Place ι) := ⟨⟨fun _ => rfl, fun _ => rfl⟩, rfl, rfl⟩

lemma block (h : region.Suits p) : region.Suits (p.inside .block []) := ⟨h.function, h.this, h.super⟩

lemma nested (h : region.Suits p) (names : List String) : region.nested.Suits (p.inside .function names) := by
  have hbody : (p.inside .function names).inFunction = true := rfl
  have hmember : (p.inside .function names).member? = p.member? := rfl
  refine ⟨?_, ?_, ?_⟩
  · rw [hbody]
    cases region <;> simp [Region.nested, Region.allowsThis]
  · rw [Place.inMethod, hmember]
    refine Eq.trans ?_ h.this
    cases region <;> rfl
  · rw [Place.inSubclassMethod, hmember]
    refine Eq.trans ?_ h.super
    cases region <;> rfl

lemma method (d : FunctionDecl (Stmt ι)) (inSubclass : Bool) (name : String) (reserved names : List String) :
    (Region.ofMethod inSubclass name).Suits ((p.inside (.receiver d inSubclass) reserved).inside .function names) := by
  have hbody : ((p.inside (.receiver d inSubclass) reserved).inside .function names).inFunction = true := rfl
  refine ⟨?_, ?_, ?_⟩
  · rw [hbody, Region.ofMethod]
    split_ifs <;> simp
  · rw [Region.ofMethod]
    split_ifs <;> rfl
  · rw [Region.ofMethod]
    cases inSubclass with
    | true => rfl
    | false => split_ifs <;> first | contradiction | rfl

lemma static (names : List String) : Region.function.Suits (p.inside .static names) :=
  ⟨⟨nofun, nofun⟩, rfl, rfl⟩

end Region.Suits

/-! ### Scopes around a place -/

namespace Resolving

/-- The scopes are those around the place: they have the same names, and all of these may be read, but for the name
whose initializer the place is in. -/
structure Surrounds (p : Place OccurrenceId) (scopes : List Scope) : Prop where
  names : List.Forall₂ (fun scope (l : LocalScope OccurrenceId) => ∀ n, scope.has n = true ↔ n ∈ l.names) scopes p.scopes
  outer : Settled scopes.tail
  inner : ∀ scope ∈ scopes.head?, ∀ n, scope.get? n = some .declared ↔ p.initializer = some n

lemma surrounds_global : Surrounds .global [] := ⟨.nil, List.forall_mem_nil _, nofun⟩

lemma Surrounds.settled (h : Surrounds p scopes) (hp : p.initializer = none) : Settled scopes := by
  rcases scopes with _ | ⟨scope, outer⟩
  · exact List.forall_mem_nil _
  · refine Settled.cons (fun n hn => ?_) h.outer
    rw [h.inner scope rfl n, hp] at hn
    cases hn

lemma Surrounds.distance? (h : Surrounds p scopes) (name : String) :
    Resolving.distance? scopes name = p.distance? name := by
  obtain ⟨hnames, -, -⟩ := h
  rw [Resolving.distance?, Place.distance?]
  generalize p.scopes = ls at hnames
  induction hnames with
  | nil => rfl
  | @cons scope l scopes ls hscope _ ih =>
    have hhas : scope.has name = decide (name ∈ l.names) := by
      rw [Bool.eq_iff_iff, hscope name, decide_eq_true_eq]
    rw [List.findIdx?_cons, List.findIdx?_cons, ih, hhas]

/-- Inside one more scope, which is empty yet. -/
lemma Surrounds.inside (h : Surrounds p scopes) (hp : p.initializer = none) (kind : ScopeKind OccurrenceId) :
    Surrounds (p.inside kind []) ([] :: scopes) := by
  refine ⟨.cons (fun n => ?_) h.names, h.settled hp, fun scope hs n => ?_⟩
  · simp [Table.has, Table.get?]
  · obtain rfl := Option.some.inj hs
    constructor <;> intro h <;> cases h

/-- Outside of the innermost scope. -/
lemma Surrounds.outside (h : Surrounds p' scopes) (hp' : p'.scopes.tail = p.scopes) (hp : p.initializer = none) :
    Surrounds p scopes.tail := by
  refine ⟨?_, h.outer.tail, fun scope hs n => ?_⟩
  · have hnames := h.names
    rw [← hp']
    generalize p'.scopes = ls at hnames
    cases hnames with
    | nil => exact .nil
    | cons _ htail => exact htail
  · rw [hp]
    refine ⟨fun hn => ?_, nofun⟩
    exact absurd hn (h.outer scope (List.mem_of_mem_head? hs) n)

/-- A name is entered into the innermost scope. -/
lemma Surrounds.enter (h : Surrounds p scopes) (name : String) (b : Binding) (initializer : Option String)
    (hinner : ∀ n, (if name = n then some b = some Binding.declared else p.initializer = some n) ↔
      initializer = some n) :
    Surrounds ⟨(p.behind [name]).scopes, initializer⟩ (enter name b scopes) := by
  rcases p with ⟨_ | ⟨l, ls⟩, i⟩
  · obtain rfl := List.forall₂_nil_right_iff.1 h.names
    exact ⟨.nil, h.outer, nofun⟩
  · obtain ⟨scope, outer, hscope, houter, rfl⟩ := List.forall₂_cons_right_iff.1 h.names
    refine ⟨.cons (fun n => ?_) houter, h.outer, fun s hs n => ?_⟩
    · rw [Table.has_put, Bool.or_eq_true, decide_eq_true_eq, hscope n, List.mem_append, List.mem_singleton, or_comm,
        eq_comm]
    · obtain rfl := Option.some.inj hs
      rw [Table.get?_put, ← hinner n, ← h.inner scope rfl n]
      split <;> rfl

/-! ### What a computation does to nodes -/

/-- The warnings about misplaced `this` and `super`. -/
def misplaced (warnings : List ScopeWarning) : List ScopeWarning := warnings.filter ScopeWarning.isMisplaced

/-- From one place to another the computation comes to the nodes.  If one of them is at fault, the computation fails
with the first fault; else it enters the distances of all of them and warns of those that are misplaced. -/
structure Checks (p p' : Place OccurrenceId) (ns : List (Node OccurrenceId × Place OccurrenceId))
    (x : Resolving Unit) : Prop where
  succeeds : ∀ r q, Surrounds p r.scopes → x r = .ok () q →
    ns.findSome? Node.fault? = none ∧ Surrounds p' q.scopes ∧ q.locals = ns.foldl record r.locals ∧
      misplaced q.warnings = misplaced r.warnings ++ ns.filterMap Node.warning?
  fails : ∀ r q e, Surrounds p r.scopes → x r = .error e q → ns.findSome? Node.fault? = some e

variable {x y : Resolving Unit}

lemma bind_fails {r q : Resolver} {e : ScopeError} (h : (do x; y) r = .error e q) :
    x r = .error e q ∨ ∃ r', x r = .ok () r' ∧ y r' = .error e q := by
  rcases hx : x r with ⟨⟨⟩, r'⟩ | ⟨e', r'⟩
  · exact .inr ⟨r', rfl, (Traced.bind_ok hx).symm.trans h⟩
  · exact .inl ((Traced.bind_error hx).symm.trans h)

lemma Checks.bind (hx : Checks p p' ns x) (hy : Checks p' p'' ms y) : Checks p p'' (ns ++ ms) (do x; y) := by
  refine ⟨fun r q hr h => ?_, fun r q e hr h => ?_⟩
  · obtain ⟨r', h1, h2⟩ := bind_ok h
    obtain ⟨hn, hr', hlocals, hwarned⟩ := hx.succeeds r r' hr h1
    obtain ⟨hn', hq, hlocals', hwarned'⟩ := hy.succeeds r' q hr' h2
    refine ⟨?_, hq, ?_, ?_⟩
    · rw [List.findSome?_append, hn, hn']
      rfl
    · rw [hlocals', hlocals, List.foldl_append]
    · rw [hwarned', hwarned, List.filterMap_append, List.append_assoc]
  · rw [List.findSome?_append]
    rcases bind_fails h with h1 | ⟨r', h1, h2⟩
    · rw [hx.fails r q e hr h1]
      rfl
    · obtain ⟨hn, hr', -⟩ := hx.succeeds r r' hr h1
      rw [hn, hy.fails r' q e hr' h2]
      rfl

/-- A computation that succeeds, comes to no nodes, and changes nothing but the scopes and other warnings. -/
lemma Checks.moving (h : ∀ r, Surrounds p r.scopes → ∃ q, x r = .ok () q ∧ Surrounds p' q.scopes ∧
    q.locals = r.locals ∧ misplaced q.warnings = misplaced r.warnings) : Checks p p' [] x := by
  refine ⟨fun r q hr hx => ?_, fun r q e hr hx => ?_⟩
  · obtain ⟨q', hx', hq, hlocals, hwarned⟩ := h r hr
    obtain ⟨⟩ := hx'.symm.trans hx
    exact ⟨rfl, hq, hlocals, hwarned.trans (List.append_nil _).symm⟩
  · obtain ⟨q', hx', -⟩ := h r hr
    cases hx'.symm.trans hx

lemma Checks.pure : Checks p p [] (pure ()) := .moving fun r hr => ⟨r, rfl, hr, rfl, rfl⟩

lemma Checks.inScope {kind : ScopeKind OccurrenceId} (h : Checks (p.inside kind []) p' ns x)
    (hp' : p'.scopes.tail = p.scopes) (hp : p.initializer = none) : Checks p p ns (inScope x) := by
  have hopen : Checks p (p.inside kind []) [] (modify fun r => { r with scopes := [] :: r.scopes }) :=
    .moving fun r hr => ⟨_, rfl, hr.inside hp kind, rfl, rfl⟩
  have hclose : Checks p' p [] (modify fun r => { r with scopes := r.scopes.tail }) :=
    .moving fun r hr => ⟨_, rfl, hr.outside hp' hp, rfl, rfl⟩
  have hall := hopen.bind (h.bind hclose)
  rwa [List.nil_append, List.append_nil] at hall

/-! ### Single steps -/

lemma bind_run (name : String) (b : Binding) (r : Resolver) :
    Resolving.bind name b r = .ok () { r with scopes := enter name b r.scopes } := by
  rcases r with ⟨_ | ⟨scope, outer⟩, locals, warnings⟩ <;> rfl

lemma declare_run (name : Ident) (r : Resolver) : ∃ warnings, declare name r =
      .ok () ⟨enter name.text .declared r.scopes, r.locals, warnings⟩ ∧ misplaced warnings = misplaced r.warnings := by
  obtain ⟨again, heq⟩ := declare_eq name r
  rw [heq, Traced.bind_ok (bind_run name.text .declared r)]
  cases again with
  | false => exact ⟨r.warnings, rfl, rfl⟩
  | true =>
    refine ⟨_, rfl, ?_⟩
    rw [misplaced, List.filter_append]
    exact List.append_nil _

lemma declare_checks (name : Ident) (hp : p.initializer = none) :
    Checks p ((p.behind [name.text]).initializing name.text) [] (declare name) := by
  refine .moving fun r hr => ?_
  obtain ⟨warnings, hrun, hwarned⟩ := declare_run name r
  refine ⟨_, hrun, hr.enter name.text .declared _ fun n => ?_, rfl, hwarned⟩
  rw [hp]
  split <;> simp_all

/-- The name of a declaration is defined behind its initializer. -/
lemma define_checks (name : String) (hp : p.initializer = none) :
    Checks ((p.behind [name]).initializing name) (p.behind [name]) [] (define name) := by
  refine .moving fun r hr => ⟨_, bind_run name .defined r, ?_, rfl, rfl⟩
  -- the scope has the name already, so entering it again adds nothing
  have henter := hr.enter name .defined none fun n => by
    rw [Place.initializing]
    split <;> simp_all
  refine ⟨?_, henter.outer, ?_⟩
  · have hnames := henter.names
    rcases p with ⟨_ | ⟨l, ls⟩, i⟩
    · exact hnames
    · obtain ⟨scope, outer, hscope, houter, heq⟩ := List.forall₂_cons_right_iff.1 hnames
      refine heq ▸ .cons (fun n => (hscope n).trans ?_) houter
      rw [List.mem_append, List.mem_append, List.mem_singleton, or_assoc, or_self]
  · rw [Place.behind_initializer, hp]
    exact henter.inner

lemma checkReadable_run {r : Resolver} (hr : Surrounds p r.scopes) (name : Ident) : checkReadable name r =
    if p.initializes name.text then .error (.ownInitializer name.text name.line) r else .ok () r := by
  rcases r with ⟨_ | ⟨scope, outer⟩, locals, warnings⟩
  · have hp : p.scopes = [] := List.forall₂_nil_left_iff.1 hr.names
    rw [Place.initializes, hp]
    rfl
  · have hp : p.scopes.isEmpty = false := by
      obtain ⟨l, ls, -, -, hp⟩ := List.forall₂_cons_left_iff.1 hr.names
      rw [hp]
      rfl
    have hstep : checkReadable name ⟨scope :: outer, locals, warnings⟩ =
        (if scope.get? name.text = some .declared then throw (.ownInitializer name.text name.line)
          else pure () : Resolving Unit) ⟨scope :: outer, locals, warnings⟩ := rfl
    rw [hstep, Place.initializes, hp]
    by_cases hd : p.initializer = some name.text
    · rw [if_pos ((hr.inner scope rfl name.text).2 hd), if_pos (by simp [hd])]
      rfl
    · rw [if_neg fun h => hd ((hr.inner scope rfl name.text).1 h), if_neg (by simp [hd])]
      rfl

/-- At a node that looks up a name, its distance is entered and nothing else happens. -/
lemma locate_checks {n : Node OccurrenceId} {use : Occurrence OccurrenceId} {name : String}
    (hn : n.looksUp? = some (use, name)) {r : Resolver} (hr : Surrounds p r.scopes) :
    locate use.id name r = .ok () { r with locals := record r.locals (n, p) } := by
  rw [record, hn]
  dsimp only
  rw [← hr.distance? name]
  rcases hd : distance? r.scopes name with _ | depth
  · exact locate_none hd
  · exact locate_some hd

lemma assign_checks (target : Occurrence OccurrenceId) :
    Checks p p [(.assign target, p)] (locate target.id target.text) := by
  refine ⟨fun r q hr h => ?_, fun r q e hr h => ?_⟩
  · rw [locate_checks (n := .assign target) rfl hr] at h
    cases h
    exact ⟨rfl, hr, rfl, (List.append_nil _).symm⟩
  · rw [locate_checks (n := .assign target) rfl hr] at h
    cases h

/-- A use of a reserved name is warned of where it has nothing to stand for. -/
lemma reserved_checks {kind : NameKind} {use : Occurrence OccurrenceId} (allowed : Bool) {w : ScopeWarning}
    (hfault : Node.fault? (.read kind use, p) = none)
    (hwarning : Node.warning? (.read kind use, p) = if allowed then none else some w) (hw : w.isMisplaced = true) :
    Checks p p [(.read kind use, p)] (do warnIf (!allowed) w; locate use.id (lookedUp kind use.text)) := by
  have hrun : ∀ r, Surrounds p r.scopes → (do warnIf (!allowed) w; locate use.id (lookedUp kind use.text)) r =
      .ok () ⟨r.scopes, record r.locals (.read kind use, p), r.warnings ++ if allowed then [] else [w]⟩ := by
    intro r hr
    have hwarn : warnIf (!allowed) w r = .ok () { r with warnings := r.warnings ++ if allowed then [] else [w] } := by
      cases allowed with
      | false => rfl
      | true =>
        rw [if_pos rfl, List.append_nil]
        rfl
    exact (Traced.bind_ok hwarn).trans (locate_checks (n := .read kind use) rfl hr)
  refine ⟨fun r q hr h => ?_, fun r q e hr h => ?_⟩
  · rw [hrun r hr] at h
    cases h
    refine ⟨?_, hr, rfl, ?_⟩
    · rw [List.findSome?_cons, hfault]
      rfl
    · rw [misplaced, List.filter_append, List.filterMap_cons, hwarning]
      cases allowed with
      | false => simp [misplaced, hw]
      | true => simp [misplaced]
  · rw [hrun r hr] at h
    cases h

lemma read_checks (hregion : region.Suits p) (kind : NameKind) (use : Occurrence OccurrenceId) :
    Checks p p [(.read kind use, p)] (read region kind use) := by
  cases kind with
  | identifier =>
    have hrun : ∀ r, Surrounds p r.scopes → read region .identifier use r =
        if p.initializes use.text then .error (.ownInitializer use.text use.line) r
        else .ok () { r with locals := record r.locals (.read .identifier use, p) } := by
      intro r hr
      have hcheck := checkReadable_run hr use.toIdent
      split_ifs with hi
      · rw [if_pos hi] at hcheck
        exact Traced.bind_error hcheck
      · rw [if_neg hi] at hcheck
        exact (Traced.bind_ok hcheck).trans (locate_checks (n := .read .identifier use) rfl hr)
    refine ⟨fun r q hr h => ?_, fun r q e hr h => ?_⟩
    · rw [hrun r hr] at h
      split_ifs at h with hi
      cases h
      exact ⟨by simp [Node.fault?, hi], hr, rfl, (List.append_nil _).symm⟩
    · rw [hrun r hr] at h
      split_ifs at h with hi
      cases h
      simp [Node.fault?, hi]
  | this =>
    refine reserved_checks region.allowsThis rfl ?_ rfl
    rw [hregion.this, Node.warning?]
  | super =>
    refine reserved_checks region.allowsSuper rfl ?_ rfl
    rw [hregion.super, Node.warning?]

lemma params_check {kind : ScopeKind OccurrenceId} : ∀ {names : List String} (ps : List Ident),
    Checks (p.inside kind names) (p.inside kind (names ++ ps.map (·.text))) [] (params ps)
  | names, [] => by
    rw [List.map_nil, List.append_nil]
    exact .pure
  | names, p :: ps => by
    rw [List.map_cons, List.append_cons]
    exact (declare_checks p rfl).bind ((define_checks p.text rfl).bind (params_check ps))

lemma reserved_define_checks {kind : ScopeKind OccurrenceId} {names : List String} (name : String) :
    Checks (p.inside kind names) (p.inside kind (names ++ [name])) [] (define name) := by
  refine .moving fun r hr => ⟨_, bind_run name .defined r, ?_, rfl, rfl⟩
  refine hr.enter name .defined none fun n => ?_
  split <;> simp [Place.inside]

lemma reservedNames_check {kind : ScopeKind OccurrenceId} (inSubclass : Bool) :
    Checks (p.inside kind []) (p.inside kind (reservedFor inSubclass)) [] (reservedNames inSubclass) := by
  cases inSubclass with
  | false => exact (reserved_define_checks "this").bind .pure
  | true => exact (reserved_define_checks "this").bind (reserved_define_checks "super")

/-! ### Trees -/

mutual

theorem expr_checks (hregion : region.Suits p) : ∀ e, Checks p p (nodesAt p e.nodes) (expr region e)
  | .literal _ => by
    rw [expr]
    exact .pure
  | .name kind use => by
    rw [expr]
    exact read_checks hregion kind use
  | .superGet keyword _ => by
    rw [expr]
    exact read_checks hregion .super keyword
  | .assign target value => by
    rw [expr, Expr.nodes, nodesAt_append]
    exact (expr_checks hregion value).bind (assign_checks target)
  | .unary _ _ e | .group e | .get e _ => by
    rw [expr, Expr.nodes]
    exact expr_checks hregion e
  | .binary _ _ e e' | .logical _ _ e e' | .set e _ e' => by
    rw [expr, Expr.nodes, nodesAt_append]
    exact (expr_checks hregion e).bind (expr_checks hregion e')
  | .call _ e es => by
    rw [expr, Expr.nodes, nodesAt_append]
    exact (expr_checks hregion e).bind (exprs_check hregion es)

theorem exprs_check (hregion : region.Suits p) : ∀ es, Checks p p (nodesAt p (Expr.nodesList es)) (exprs region es)
  | [] => by
    rw [exprs]
    exact .pure
  | e :: es => by
    rw [exprs, Expr.nodesList, nodesAt_append]
    exact (expr_checks hregion e).bind (exprs_check hregion es)

end

lemma exprOption_checks (hregion : region.Suits p) (e : Option (Expr OccurrenceId)) :
    Checks p p (nodesAt p (Expr.nodesOption e)) (exprOption region e) := by
  cases e with
  | none => exact .pure
  | some e => exact expr_checks hregion e

lemma superclass_checks (hregion : region.Suits p) (name : Ident) (parent : Option (Occurrence OccurrenceId)) :
    Checks p p (nodesAt p (parent.toList.map (.read .identifier))) (superclass region name parent) := by
  cases parent with
  | none => exact .pure
  | some use =>
    have hwarn : Checks p p [] (warnIf (use.text = name.text) (.inheritsFromItself use.text use.line)) := by
      refine .moving fun r hr => ?_
      rw [warnIf]
      split
      · refine ⟨_, rfl, hr, rfl, ?_⟩
        rw [misplaced, List.filter_append]
        exact List.append_nil _
      · exact ⟨r, rfl, hr, rfl, rfl⟩
    exact hwarn.bind (read_checks hregion .identifier use)

/-- A return is a fault at the top level; else its value is resolved. -/
lemma return_checks (hregion : region.Suits p) (line : Nat) (value : Option (Expr OccurrenceId)) :
    Checks p p (nodesAt p (.return line :: Expr.nodesOption value))
      (if region = .topLevel then throw (.returnOutsideFunction line) else exprOption region value) := by
  by_cases htop : region = .topLevel
  · rw [if_pos htop]
    have hfault : Node.fault? (.return line, p) = some (.returnOutsideFunction line) := by
      rw [Node.fault?, hregion.function.1 htop]
      rfl
    refine ⟨fun r q hr h => ?_, fun r q e hr h => ?_⟩
    · cases h
    · cases h
      rw [nodesAt, List.map_cons, List.findSome?_cons, hfault]
  · rw [if_neg htop]
    have hin : p.inFunction = true := by
      rw [← Bool.not_eq_false]
      exact fun h => htop (hregion.function.2 h)
    have hfault : Node.fault? (.return line, p) = none := by
      rw [Node.fault?, if_pos hin]
    have hreturn : Checks p p [(.return line, p)] (pure ()) := by
      refine ⟨fun r q hr h => ?_, fun r q e hr h => ?_⟩
      · cases h
        refine ⟨?_, hr, rfl, (List.append_nil _).symm⟩
        rw [List.findSome?_cons, hfault]
        rfl
      · cases h
    exact hreturn.bind (exprOption_checks hregion value)

/-- A declaration whose value is resolved between declaring and defining the name. -/
lemma declaration_checks {name : Ident} (hp : p.initializer = none)
    (h : Checks ((p.behind [name.text]).initializing name.text) ((p.behind [name.text]).initializing name.text) ns x) :
    Checks p (p.behind [name.text]) ns (do declare name; x; define name.text) := by
  have hall := (declare_checks name hp).bind (h.bind (define_checks name.text hp))
  rwa [List.nil_append, List.append_nil] at hall

/-- What opened a scope does not matter for the names in it. -/
lemma Checks.reopened {kind kind' : ScopeKind OccurrenceId} {names : List String}
    (h : Checks (p.inside kind names) (p.inside kind names) ns x) :
    Checks (p.inside kind' names) (p.inside kind' names) ns x := by
  have hsurrounds : ∀ k k' scopes, Surrounds (p.inside k names) scopes → Surrounds (p.inside k' names) scopes := by
    intro k k' scopes hs
    refine ⟨?_, hs.outer, hs.inner⟩
    obtain ⟨scope, outer, hscope, houter, rfl⟩ := List.forall₂_cons_right_iff.1 hs.names
    exact .cons hscope houter
  refine ⟨fun r q hr hx => ?_, fun r q e hr hx => h.fails r q e (hsurrounds _ _ _ hr) hx⟩
  obtain ⟨hn, hq, hrest⟩ := h.succeeds r q (hsurrounds _ _ _ hr) hx
  exact ⟨hn, hsurrounds _ _ _ hq, hrest⟩

mutual

theorem stmt_checks : ∀ {region : Region} {p : Place OccurrenceId}, p.initializer = none → region.Suits p →
    ∀ s, Checks p (p.behind s.scopeNames) (s.nodes p) (stmt region s)
  | region, p, hp, hregion, .expr e | region, p, hp, hregion, .print e => by
    rw [stmt, Stmt.nodes, Stmt.scopeNames, Place.behind_nil]
    exact expr_checks hregion e
  | region, p, hp, hregion, .letVar name value => by
    rw [stmt, Stmt.nodes, Stmt.scopeNames]
    have hvalue := hregion.congr (q := (p.behind [name.text]).initializing name.text) (by simp)
    exact declaration_checks hp (exprOption_checks hvalue value)
  | region, p, hp, hregion, .constVar name value => by
    rw [stmt, Stmt.nodes, Stmt.scopeNames]
    have hvalue := hregion.congr (q := (p.behind [name.text]).initializing name.text) (by simp)
    exact declaration_checks hp (expr_checks hvalue value)
  | region, p, hp, hregion, .block body => by
    rw [stmt, Stmt.nodes, Stmt.scopeNames, Place.behind_nil]
    exact (stmts_check rfl hregion.block body).inScope rfl hp
  | region, p, hp, hregion, .ifThen c yes | region, p, hp, hregion, .while c yes => by
    rw [stmt, Stmt.nodes, Stmt.scopeNames]
    exact (expr_checks hregion c).bind (stmt_checks hp hregion yes)
  | region, p, hp, hregion, .ifElse c yes no => by
    rw [stmt, Stmt.nodes, Stmt.scopeNames, ← Place.behind_behind]
    have hp' : (p.behind yes.scopeNames).initializer = none := by rw [Place.behind_initializer, hp]
    have hregion' := hregion.congr (Place.kinds_behind p yes.scopeNames)
    exact (expr_checks hregion c).bind ((stmt_checks hp hregion yes).bind (stmt_checks hp' hregion' no))
  | region, p, hp, hregion, .function decl => by
    rw [stmt, Stmt.nodes, Stmt.scopeNames]
    have hp' : (p.behind [decl.name.text]).initializer = none := by rw [Place.behind_initializer, hp]
    have hregion' := hregion.congr (Place.kinds_behind p [decl.name.text])
    exact (declare_checks decl.name hp).bind ((define_checks decl.name.text hp).bind
      (function_checks hp' .function (fun names => hregion'.nested names) decl))
  | region, p, hp, hregion, .return line value => by
    rw [stmt, Stmt.nodes, Stmt.scopeNames, Place.behind_nil]
    exact return_checks hregion line value
  | region, p, hp, hregion, .classDecl name parent methods statics => by
    rw [stmt, Stmt.nodes, Stmt.scopeNames]
    have hp' : (p.behind [name.text]).initializer = none := by rw [Place.behind_initializer, hp]
    have hmethods := ((reservedNames_check parent.isSome).bind
      (methods_check .block parent.isSome methods)).inScope rfl hp'
    exact (superclass_checks hregion name parent).bind ((declare_checks name hp).bind
      ((define_checks name.text hp).bind (hmethods.bind (statics_check hp' statics))))

theorem stmts_check : ∀ {region : Region} {p : Place OccurrenceId}, p.initializer = none → region.Suits p →
    ∀ ss, Checks p (p.behind (ss.flatMap Stmt.scopeNames)) (Stmt.nodesList p ss) (stmts region ss)
  | region, p, hp, hregion, [] => by
    rw [stmts, Stmt.nodesList, List.flatMap_nil, Place.behind_nil]
    exact .pure
  | region, p, hp, hregion, s :: ss => by
    rw [stmts, Stmt.nodesList, List.flatMap_cons, ← Place.behind_behind]
    have hp' : (p.behind s.scopeNames).initializer = none := by rw [Place.behind_initializer, hp]
    exact (stmt_checks hp hregion s).bind (stmts_check hp' (hregion.congr (Place.kinds_behind p s.scopeNames)) ss)

theorem function_checks : ∀ {region : Region} {p : Place OccurrenceId}, p.initializer = none →
    ∀ kind, (∀ names, region.Suits (p.inside kind names)) → ∀ d,
      Checks p p (FunctionDecl.nodes kind p d) (function region d)
  | region, p, hp, kind, hregion, ⟨name, ps, body⟩ => by
    rw [function, FunctionDecl.nodes]
    exact ((params_check ps).bind (stmts_check rfl (hregion _) body)).inScope rfl hp

theorem methods_check : ∀ {p : Place OccurrenceId} (kind : ScopeKind OccurrenceId) (inSubclass : Bool), ∀ ds,
    Checks (p.inside kind (reservedFor inSubclass)) (p.inside kind (reservedFor inSubclass))
      (FunctionDecl.methodNodes inSubclass p ds) (methods inSubclass ds)
  | p, kind, inSubclass, [] => by
    rw [methods, FunctionDecl.methodNodes]
    exact .pure
  | p, kind, inSubclass, d :: ds => by
    rw [methods, FunctionDecl.methodNodes]
    have hd := function_checks (p := p.inside (.receiver d inSubclass) (reservedFor inSubclass)) rfl .function
      (fun names => .method d inSubclass d.name.text (reservedFor inSubclass) names) d
    exact hd.reopened.bind (methods_check kind inSubclass ds)

theorem statics_check : ∀ {p : Place OccurrenceId}, p.initializer = none → ∀ ds,
    Checks p p (FunctionDecl.staticNodes p ds) (statics ds)
  | p, hp, [] => by
    rw [statics, FunctionDecl.staticNodes]
    exact .pure
  | p, hp, d :: ds => by
    rw [statics, FunctionDecl.staticNodes]
    exact (function_checks hp .static (fun names => .static names) d).bind (statics_check hp ds)

end

end Resolving

end ScriptLang

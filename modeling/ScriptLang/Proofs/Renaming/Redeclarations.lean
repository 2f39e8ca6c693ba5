import Mathlib.Data.List.Nodup
import ScriptLang.Proofs.Addressing.TopLevel

/-!
# Redeclarations

Resolving warns of every name that one scope declares twice.  So a program that is resolved without such a
warning declares different names in each scope.

* `Stmt.scopeNames` — the names that a statement declares in the scope where it stands;
* `Stmt.Distinct` — in every scope inside of a statement the declared names are different;
* `Introduces` — what a computation declares, and what follows if it has not warned;
* `stmts_introduce` — the theorem for statements, and `distinct_of_resolve` for programs.
-/

namespace ScriptLang

variable {ι : Type}

/-- The names that a statement declares in the scope where it stands. -/
def Stmt.scopeNames : Stmt ι → List String
  | .letVar name _ | .constVar name _ | .classDecl name .. => [name.text]
  | .function decl => [decl.name.text]
  | .ifThen _ yes => yes.scopeNames
  | .ifElse _ yes no => yes.scopeNames ++ no.scopeNames
  | .while _ body => body.scopeNames
  | .expr _ | .print _ | .block _ | .return _ _ => []

mutual

/-- In every scope inside of a statement the declared names are different. -/
def Stmt.Distinct : Stmt ι → Prop
  | .block body => (body.flatMap Stmt.scopeNames).Nodup ∧ Stmt.DistinctList body
  | .ifThen _ yes => yes.Distinct
  | .ifElse _ yes no => yes.Distinct ∧ no.Distinct
  | .while _ body => body.Distinct
  | .function decl => FunctionDecl.Distinct decl
  | .classDecl _ _ methods statics => FunctionDecl.DistinctList methods ∧ FunctionDecl.DistinctList statics
  | .expr _ | .print _ | .letVar _ _ | .constVar _ _ | .return _ _ => True

/-- In every scope inside of several statements the declared names are different. -/
def Stmt.DistinctList : List (Stmt ι) → Prop
  | [] => True
  | s :: ss => s.Distinct ∧ Stmt.DistinctList ss

/-- In the scope of a function and in every scope inside of it the declared names are different. -/
def FunctionDecl.Distinct : FunctionDecl (Stmt ι) → Prop
  | ⟨_, params, body⟩ => (params.map (·.text) ++ body.flatMap Stmt.scopeNames).Nodup ∧ Stmt.DistinctList body

/-- In the scopes of several functions and in every scope inside of them the declared names are different. -/
def FunctionDecl.DistinctList : List (FunctionDecl (Stmt ι)) → Prop
  | [] => True
  | decl :: decls => FunctionDecl.Distinct decl ∧ FunctionDecl.DistinctList decls

end

namespace Resolving

variable {x y : Resolving Unit} {P Q : Prop} {ns ms : List String} {r q : Resolver} {region : Region}
  {l l' l'' : List Scope}

/-! ### What a computation declares -/

/-- No redeclaration has been warned of. -/
def Unwarned (r : Resolver) : Prop := ∀ name line, .redeclaration name line ∉ r.warnings

/-- The innermost scope keeps its names and has these in addition. -/
def Gains (ns : List String) (l l' : List Scope) : Prop :=
  ∀ scope outer, l = scope :: outer →
    ∃ scope', l' = scope' :: outer ∧ ∀ n, n ∈ ns ∨ scope.has n = true → scope'.has n = true

/-- The names are different, and new for the innermost scope. -/
def NewFor (ns : List String) (l : List Scope) : Prop :=
  ∀ scope outer, l = scope :: outer → ns.Nodup ∧ ∀ n ∈ ns, scope.has n = false

/-- The computation enters names into the innermost scope.  If there is no warning of a redeclaration behind it,
there was none before, the names are new, and something more holds. -/
def Introduces (ns : List String) (P : Prop) (x : Resolving Unit) : Prop :=
  ∀ r q, x r = .ok () q →
    Gains ns r.scopes q.scopes ∧ (Unwarned q → Unwarned r ∧ NewFor ns r.scopes ∧ P)

lemma Gains.refl : Gains [] l l := by
  rintro scope outer rfl
  exact ⟨scope, rfl, fun n hn => hn.resolve_left List.not_mem_nil⟩

lemma Gains.trans (h : Gains ns l l') (h' : Gains ms l' l'') : Gains (ns ++ ms) l l'' := by
  rintro scope outer rfl
  obtain ⟨scope', rfl, hhas⟩ := h scope outer rfl
  obtain ⟨scope'', rfl, hhas'⟩ := h' scope' outer rfl
  refine ⟨scope'', rfl, fun n hn => hhas' n ?_⟩
  rcases hn with hn | hn
  · exact (List.mem_append.1 hn).symm.imp_right fun hn => hhas n (.inl hn)
  · exact .inr (hhas n (.inr hn))

lemma newFor_nil : NewFor [] l := fun _ _ _ => ⟨List.nodup_nil, List.forall_mem_nil _⟩

lemma NewFor.append (h : NewFor ns l) (hgains : Gains ns l l') (h' : NewFor ms l') : NewFor (ns ++ ms) l := by
  rintro scope outer rfl
  obtain ⟨hnodup, hnew⟩ := h scope outer rfl
  obtain ⟨scope', rfl, hhas⟩ := hgains scope outer rfl
  obtain ⟨hnodup', hnew'⟩ := h' scope' outer rfl
  have hnot : ∀ n ∈ ms, n ∉ ns ∧ scope.has n = false := by
    intro n hn
    refine ⟨fun hmem => ?_, Bool.eq_false_iff.2 fun hmem => ?_⟩
    · exact Bool.false_ne_true ((hnew' n hn).symm.trans (hhas n (.inl hmem)))
    · exact Bool.false_ne_true ((hnew' n hn).symm.trans (hhas n (.inr hmem)))
  refine ⟨List.nodup_append.2 ⟨hnodup, hnodup', fun n hn m hm => ?_⟩, fun n hn => ?_⟩
  · rintro rfl
    exact (hnot n hm).1 hn
  · exact (List.mem_append.1 hn).elim (hnew n) fun hn => (hnot n hn).2

lemma Introduces.bind (h : Introduces ns P x) (h' : Introduces ms Q y) :
    Introduces (ns ++ ms) (P ∧ Q) (do x; y) := by
  intro r q hxy
  obtain ⟨r', hx, hy⟩ := bind_ok hxy
  obtain ⟨hgains, hx⟩ := h r r' hx
  obtain ⟨hgains', hy⟩ := h' r' q hy
  refine ⟨hgains.trans hgains', fun hq => ?_⟩
  obtain ⟨hr', hnew', hQ⟩ := hy hq
  obtain ⟨hr, hnew, hP⟩ := hx hr'
  exact ⟨hr, hnew.append hgains hnew', hP, hQ⟩

lemma Introduces.imp (h : Introduces ns P x) (hPQ : P → Q) : Introduces ns Q x := by
  intro r q hx
  obtain ⟨hgains, hx⟩ := h r q hx
  exact ⟨hgains, fun hq => (hx hq).imp_right fun hn => hn.imp_right hPQ⟩

lemma Introduces.pure : Introduces [] True (pure ()) := by
  intro r q hx
  cases hx
  exact ⟨.refl, fun hr => ⟨hr, newFor_nil, trivial⟩⟩

lemma Introduces.inScope (h : Introduces ns P x) : Introduces [] (ns.Nodup ∧ P) (inScope x) := by
  intro r q hx
  obtain ⟨r1, hr1, hx⟩ := bind_ok hx
  obtain ⟨r2, hbody, hr2⟩ := bind_ok hx
  cases hr1
  cases hr2
  obtain ⟨hgains, hwarned⟩ := h _ r2 hbody
  obtain ⟨scope', hscopes, -⟩ := hgains [] r.scopes rfl
  refine ⟨?_, fun hq => ?_⟩
  · show Gains [] r.scopes r2.scopes.tail
    rw [hscopes, List.tail_cons]
    exact .refl
  · obtain ⟨hr, hnew, hP⟩ := hwarned hq
    exact ⟨hr, newFor_nil, (hnew [] r.scopes rfl).1, hP⟩

/-! ### Single steps -/

lemma warn_introduces {w : ScopeWarning} : Introduces [] True (warn w) := by
  intro r q hx
  cases hx
  refine ⟨.refl, fun hq => ⟨fun name line hmem => ?_, newFor_nil, trivial⟩⟩
  exact hq name line (List.mem_append_left _ hmem)

lemma warnIf_introduces {c : Bool} {w : ScopeWarning} : Introduces [] True (warnIf c w) := by
  cases c
  · exact .pure
  · exact warn_introduces

lemma bind_gains {text : String} {b : Binding} (hx : Resolving.bind text b r = .ok () q) :
    Gains [text] r.scopes q.scopes ∧ q.warnings = r.warnings := by
  rcases r with ⟨_ | ⟨scope, outer⟩, locals, warnings⟩
  · cases hx
    exact ⟨nofun, rfl⟩
  · cases hx
    refine ⟨?_, rfl⟩
    rintro _ _ ⟨⟩
    refine ⟨scope.put text b, rfl, fun n hn => ?_⟩
    rw [Table.has_put, Bool.or_eq_true, decide_eq_true_eq]
    exact hn.imp_left fun hn => (List.mem_singleton.1 hn).symm

lemma define_introduces (text : String) : Introduces [] True (define text) := by
  intro r q hx
  obtain ⟨hgains, hw⟩ := bind_gains hx
  refine ⟨fun scope outer hl => ?_, fun hq => ⟨fun name line => hw ▸ hq name line, newFor_nil, trivial⟩⟩
  obtain ⟨scope', hscope', hhas⟩ := hgains scope outer hl
  exact ⟨scope', hscope', fun n hn => hhas n (.inr (hn.resolve_left List.not_mem_nil))⟩

lemma declare_introduces (name : Ident) : Introduces [name.text] True (declare name) := by
  intro r q hx
  obtain ⟨r1, hr1, hx⟩ : ∃ r1, Resolving.bind name.text .declared r = .ok () r1 ∧
      warnIf (r.scopes.head?.any (·.has name.text)) (.redeclaration name.text name.line) r1 = .ok () q := by
    rcases r with ⟨_ | ⟨scope, outer⟩, locals, warnings⟩
    · exact ⟨_, rfl, hx⟩
    · exact ⟨_, rfl, hx⟩
  obtain ⟨hgains, hw⟩ := bind_gains hr1
  have hscopes : q.scopes = r1.scopes := (warnIf_rescopes hx).1
  refine ⟨hscopes ▸ hgains, fun hq => ?_⟩
  obtain ⟨-, hwarned⟩ := warnIf_introduces r1 q hx
  obtain ⟨hr1, -, -⟩ := hwarned hq
  have hr : Unwarned r := fun n line => hw ▸ hr1 n line
  refine ⟨hr, fun scope outer hl => ⟨List.nodup_singleton _, fun n hn => ?_⟩, trivial⟩
  -- a name that the scope has already is warned of
  obtain rfl := List.mem_singleton.1 hn
  refine Bool.eq_false_iff.2 fun hhas => ?_
  have hagain : r.scopes.head?.any (·.has name.text) = true := by
    rw [hl]
    exact hhas
  rw [hagain] at hx
  cases hx
  exact hq _ _ (List.mem_append_right _ (List.mem_singleton.2 rfl))

lemma still_introduces (h : ∀ r q, x r = .ok () q → q.scopes = r.scopes ∧ q.warnings = r.warnings) :
    Introduces [] True x := by
  intro r q hx
  obtain ⟨hs, hw⟩ := h r q hx
  exact ⟨hs ▸ .refl, fun hq => ⟨fun name line => hw ▸ hq name line, newFor_nil, trivial⟩⟩

lemma locate_introduces (id : OccurrenceId) (text : String) : Introduces [] True (locate id text) :=
  still_introduces fun _ _ hx => ⟨(locate_locates hx).scopes, locate_warnings hx⟩

lemma checkReadable_introduces (name : Ident) : Introduces [] True (checkReadable name) := by
  refine still_introduces fun r q hx => ?_
  obtain ⟨rfl, -⟩ := checkReadable_ok hx
  exact ⟨rfl, rfl⟩

lemma read_introduces (kind : NameKind) (use : Occurrence OccurrenceId) :
    Introduces [] True (read region kind use) := by
  cases kind with
  | identifier =>
    have h := (checkReadable_introduces use.toIdent).bind (locate_introduces use.id use.text)
    exact h.imp fun _ => trivial
  | this => exact (warnIf_introduces.bind (locate_introduces use.id "this")).imp fun _ => trivial
  | super => exact (warnIf_introduces.bind (locate_introduces use.id "super")).imp fun _ => trivial

lemma params_introduce : ∀ ps : List Ident, Introduces (ps.map (·.text)) True (params ps)
  | [] => .pure
  | p :: ps =>
    ((declare_introduces p).bind ((define_introduces p.text).bind (params_introduce ps))).imp fun _ => trivial

lemma reservedNames_introduces (inSubclass : Bool) : Introduces [] True (reservedNames inSubclass) := by
  cases inSubclass
  · exact ((define_introduces "this").bind .pure).imp fun _ => trivial
  · exact ((define_introduces "this").bind (define_introduces "super")).imp fun _ => trivial

/-! ### Trees -/

mutual

theorem expr_introduces : ∀ e, Introduces [] True (expr region e)
  | .literal _ => by
    rw [expr]
    exact .pure
  | .name kind use => by
    rw [expr]
    exact read_introduces kind use
  | .superGet keyword _ => by
    rw [expr]
    exact read_introduces .super keyword
  | .assign target e => by
    rw [expr]
    exact ((expr_introduces e).bind (locate_introduces target.id target.text)).imp fun _ => trivial
  | .unary _ _ e | .group e | .get e _ => by
    rw [expr]
    exact expr_introduces e
  | .binary _ _ e e' | .logical _ _ e e' | .set e _ e' => by
    rw [expr]
    exact ((expr_introduces e).bind (expr_introduces e')).imp fun _ => trivial
  | .call _ e es => by
    rw [expr]
    exact ((expr_introduces e).bind (exprs_introduce es)).imp fun _ => trivial

theorem exprs_introduce : ∀ es, Introduces [] True (exprs region es)
  | [] => by
    rw [exprs]
    exact .pure
  | e :: es => by
    rw [exprs]
    exact ((expr_introduces e).bind (exprs_introduce es)).imp fun _ => trivial

end

lemma exprOption_introduces (e : Option (Expr OccurrenceId)) : Introduces [] True (exprOption region e) := by
  cases e with
  | none => exact .pure
  | some e => exact expr_introduces e

lemma superclass_introduces (name : Ident) (parent : Option (Occurrence OccurrenceId)) :
    Introduces [] True (superclass region name parent) := by
  cases parent with
  | none => exact .pure
  | some use => exact (warnIf_introduces.bind (read_introduces .identifier use)).imp fun _ => trivial

/-- A declaration whose value is resolved between declaring and defining the name. -/
lemma declaration_introduces (name : Ident) (h : Introduces [] P x) :
    Introduces [name.text] P (do declare name; x; define name.text) :=
  ((declare_introduces name).bind (h.bind (define_introduces name.text))).imp fun hP => hP.2.1

/-- A declaration whose name is defined at once. -/
lemma definition_introduces (name : Ident) (h : Introduces [] P x) :
    Introduces [name.text] P (do declare name; define name.text; x) :=
  ((declare_introduces name).bind ((define_introduces name.text).bind h)).imp fun hP => hP.2.2

mutual

theorem stmt_introduces : ∀ (region : Region) s, Introduces s.scopeNames s.Distinct (stmt region s)
  | region, .expr e | region, .print e => by
    rw [stmt]
    exact expr_introduces e
  | region, .letVar name v => by
    rw [stmt]
    exact declaration_introduces name (exprOption_introduces v)
  | region, .constVar name v => by
    rw [stmt]
    exact declaration_introduces name (expr_introduces v)
  | region, .block body => by
    rw [stmt]
    exact (stmts_introduce region body).inScope
  | region, .ifThen c s | region, .while c s => by
    rw [stmt]
    exact ((expr_introduces c).bind (stmt_introduces region s)).imp fun hP => hP.2
  | region, .ifElse c s s' => by
    rw [stmt]
    exact ((expr_introduces c).bind ((stmt_introduces region s).bind (stmt_introduces region s'))).imp
      fun hP => hP.2
  | region, .function d => by
    rw [stmt]
    exact definition_introduces d.name (function_introduces region.nested d)
  | region, .return line v => by
    rw [stmt]
    split
    · exact nofun
    · exact exprOption_introduces v
  | region, .classDecl name p ms ss => by
    rw [stmt]
    have hmethods := ((reservedNames_introduces p.isSome).bind (methods_introduce p.isSome ms)).inScope
    exact ((superclass_introduces name p).bind
      (definition_introduces name (hmethods.bind (statics_introduce ss)))).imp
        fun hP => ⟨hP.2.1.2.2, hP.2.2⟩

theorem stmts_introduce : ∀ (region : Region) ss,
    Introduces (ss.flatMap Stmt.scopeNames) (Stmt.DistinctList ss) (stmts region ss)
  | region, [] => by
    rw [stmts]
    exact .pure
  | region, s :: ss => by
    rw [stmts, List.flatMap_cons]
    exact (stmt_introduces region s).bind (stmts_introduce region ss)

theorem function_introduces : ∀ (region : Region) d, Introduces [] (FunctionDecl.Distinct d) (function region d)
  | region, ⟨name, ps, body⟩ => by
    rw [function]
    exact ((params_introduce ps).bind (stmts_introduce region body)).inScope.imp fun hP => ⟨hP.1, hP.2.2⟩

theorem methods_introduce : ∀ (inSubclass : Bool) ds,
    Introduces [] (FunctionDecl.DistinctList ds) (methods inSubclass ds)
  | inSubclass, [] => by
    rw [methods]
    exact .pure
  | inSubclass, d :: ds => by
    rw [methods]
    exact (function_introduces _ d).bind (methods_introduce inSubclass ds)

theorem statics_introduce : ∀ ds, Introduces [] (FunctionDecl.DistinctList ds) (statics ds)
  | [] => by
    rw [statics]
    exact .pure
  | d :: ds => by
    rw [statics]
    exact (function_introduces .function d).bind (statics_introduce ds)

end

/-- **A program that is resolved without a warning of a redeclaration declares different names in each scope.** -/
theorem distinct_of_resolve {program : Program OccurrenceId} {res : Resolution}
    (h : (Resolver.empty.resolve program).1 = .ok res)
    (hwarned : ∀ name line, .redeclaration name line ∉ res.warnings) : Stmt.DistinctList program := by
  obtain ⟨q, htop, rfl⟩ := resolve_ok_iff.1 h
  have hrun : stmts .topLevel program .empty = .ok () q := by
    rw [← stmtsT_run]
    exact (topLevel_ok htop).1
  obtain ⟨-, hdistinct⟩ := stmts_introduce .topLevel program .empty q hrun
  exact (hdistinct hwarned).2.2

end Resolving

end ScriptLang

import ScriptLang.Proofs.Renaming.Redeclarations

/-!
# Where names are declared

A declaration in a scope has a site: the names that the scope has from the declarations in front of it, and its own
name.  Resolving warns of a redeclaration exactly at the sites whose name is among those in front.

* `Site`, `Stmt.sites` — the sites of a program, in the order in which resolving comes to them;
* `Reports` — a resolving computation that comes to certain sites and warns of the repeated ones;
* `resolve_reports` — the theorem for accepted programs.
-/

namespace ScriptLang

variable {ι : Type}

/-- A declaration in a scope: the names declared in front of it in the same scope, and the name that it declares. -/
structure Site where
  front : List String
  name : Ident
deriving DecidableEq

/-- The scope has the name already. -/
def Site.Repeated (d : Site) : Prop := d.name.text ∈ d.front

instance : DecidablePred Site.Repeated := fun d => inferInstanceAs (Decidable (d.name.text ∈ d.front))

/-- The names that the scope around a place has from the declarations in front of it; at the global level there is
no scope. -/
abbrev Front := Option (List String)

namespace Front

/-- The same scope behind the declarations of more names. -/
def after (front : Front) (names : List String) : Front := front.map (· ++ names)

/-- The site of a declaration; one at the global level has none. -/
def sites (front : Front) (name : Ident) : List Site := front.toList.map (⟨·, name⟩)

@[simp] lemma after_nil (front : Front) : front.after [] = front := by
  cases front with
  | none => rfl
  | some names => exact congrArg some (List.append_nil names)

@[simp] lemma after_after (front : Front) (ns ms : List String) :
    (front.after ns).after ms = front.after (ns ++ ms) := by
  cases front with
  | none => rfl
  | some names => exact congrArg some (List.append_assoc names ns ms)

end Front

/-- The sites of parameters, behind other names of their scope. -/
def paramSites (front : List String) : List Ident → List Site
  | [] => []
  | p :: ps => ⟨front, p⟩ :: paramSites (front ++ [p.text]) ps

mutual

/-- The sites of a statement: its own, if it declares a name, and those inside of it. -/
def Stmt.sites (front : Front) : Stmt ι → List Site
  | .expr _ | .print _ | .return _ _ => []
  | .letVar name _ | .constVar name _ => front.sites name
  | .block body => Stmt.sitesList (some []) body
  | .ifThen _ yes => yes.sites front
  | .ifElse _ yes no => yes.sites front ++ no.sites (front.after yes.scopeNames)
  | .while _ body => body.sites front
  | .function decl => front.sites decl.name ++ FunctionDecl.sites decl
  | .classDecl name _ methods statics =>
    front.sites name ++ (FunctionDecl.sitesList methods ++ FunctionDecl.sitesList statics)

/-- The sites of several statements in one scope. -/
def Stmt.sitesList (front : Front) : List (Stmt ι) → List Site
  | [] => []
  | s :: ss => s.sites front ++ Stmt.sitesList (front.after s.scopeNames) ss

/-- The sites of a function: its parameters and its body share a scope. -/
def FunctionDecl.sites : FunctionDecl (Stmt ι) → List Site
  | ⟨_, params, body⟩ => paramSites [] params ++ Stmt.sitesList (some (params.map (·.text))) body

/-- The sites of several functions. -/
def FunctionDecl.sitesList : List (FunctionDecl (Stmt ι)) → List Site
  | [] => []
  | d :: ds => FunctionDecl.sites d ++ FunctionDecl.sitesList ds

end

/-- The name that a warning tells to be declared again. -/
def ScopeWarning.redeclared? : ScopeWarning → Option Ident
  | .redeclaration name line => some ⟨name, line⟩
  | _ => none

/-- The names that warnings tell to be declared again, with the lines of the declarations. -/
def redeclared (warnings : List ScopeWarning) : List Ident := warnings.filterMap ScopeWarning.redeclared?

namespace Resolving

variable {x y : Resolving Unit} {front front' front'' : Front} {ds es : List Site} {region : Region} {r q : Resolver}

/-! ### What a computation reports -/

/-- The innermost scope has the names in front, and no others. -/
def Holds (front : Front) (scopes : List Scope) : Prop :=
  match front with
  | none => scopes = []
  | some names => ∃ scope outer, scopes = scope :: outer ∧ ∀ n, scope.has n = true ↔ n ∈ names

/-- From behind some declarations to behind more of them: the computation comes to the sites and warns of those
that are repeated, in their order. -/
def Reports (front front' : Front) (ds : List Site) (x : Resolving Unit) : Prop :=
  ∀ r q, Holds front r.scopes → x r = .ok () q →
    Holds front' q.scopes ∧ q.scopes.tail = r.scopes.tail ∧
      redeclared q.warnings = redeclared r.warnings ++ (ds.filter (·.Repeated)).map (·.name)

lemma Reports.bind (h : Reports front front' ds x) (h' : Reports front' front'' es y) :
    Reports front front'' (ds ++ es) (do x; y) := by
  intro r q hr hxy
  obtain ⟨r', hx, hy⟩ := bind_ok hxy
  obtain ⟨hr', htail, hwarned⟩ := h r r' hr hx
  obtain ⟨hq, htail', hwarned'⟩ := h' r' q hr' hy
  refine ⟨hq, htail'.trans htail, ?_⟩
  rw [hwarned', hwarned, List.filter_append, List.map_append, List.append_assoc]

/-- Computations that leave the scopes as they are, and tell of no redeclaration. -/
lemma Reports.still (h : ∀ r q, x r = .ok () q → q.scopes = r.scopes ∧ redeclared q.warnings = redeclared r.warnings) :
    Reports front front [] x := by
  intro r q hr hx
  obtain ⟨hscopes, hwarned⟩ := h r q hx
  exact ⟨hscopes ▸ hr, congrArg List.tail hscopes, by rw [hwarned]; exact (List.append_nil _).symm⟩

lemma Reports.pure : Reports front front [] (pure ()) := .still fun r q hx => by
  cases hx
  exact ⟨rfl, rfl⟩

/-- Behind one more scope the old one is innermost again. -/
lemma Reports.inScope (h : Reports (some []) front' ds x) : Reports front front ds (inScope x) := by
  intro r q hr hx
  obtain ⟨r1, hr1, hx⟩ := bind_ok hx
  obtain ⟨r2, hbody, hr2⟩ := bind_ok hx
  cases hr1
  cases hr2
  obtain ⟨-, htail, hwarned⟩ := h _ r2 ⟨[], r.scopes, rfl, fun n => by simp [Table.has, Table.get?]⟩ hbody
  refine ⟨?_, ?_, hwarned⟩
  · show Holds front r2.scopes.tail
    rw [htail]
    exact hr
  · show r2.scopes.tail.tail = _
    rw [htail]
    rfl

/-! ### Single steps -/

lemma holds_put {scope : Scope} {outer : List Scope} {names : List String} {text : String} {b : Binding}
    (h : ∀ n, scope.has n = true ↔ n ∈ names) : Holds (some (names ++ [text])) (scope.put text b :: outer) := by
  refine ⟨_, outer, rfl, fun n => ?_⟩
  rw [Table.has_put, Bool.or_eq_true, decide_eq_true_eq, h n, List.mem_append, List.mem_singleton, or_comm, eq_comm]

lemma define_reports (text : String) : Reports front (front.after [text]) [] (define text) := by
  rintro ⟨scopes, locals, warnings⟩ q hr hx
  cases front with
  | none =>
    obtain rfl : scopes = [] := hr
    cases hx
    exact ⟨rfl, rfl, (List.append_nil _).symm⟩
  | some names =>
    obtain ⟨scope, outer, rfl, hhas⟩ : ∃ scope outer, scopes = scope :: outer ∧ _ := hr
    cases hx
    exact ⟨holds_put hhas, rfl, (List.append_nil _).symm⟩

/-- A name that is declared already may be defined without a change of what is in front. -/
lemma define_again_reports (text : String) :
    Reports (front.after [text]) (front.after [text]) [] (define text) := by
  intro r q hr hx
  obtain ⟨hq, hrest⟩ := define_reports text r q hr hx
  refine ⟨?_, hrest⟩
  cases front with
  | none => exact hq
  | some names =>
    obtain ⟨scope, outer, hscopes, hhas⟩ := hq
    refine ⟨scope, outer, hscopes, fun n => (hhas n).trans ?_⟩
    simp only [List.mem_append, List.mem_singleton, or_assoc, or_self]

/-- **Declaring a name is warned of exactly if the scope has the name already.** -/
lemma declare_reports (name : Ident) :
    Reports front (front.after [name.text]) (front.sites name) (declare name) := by
  rintro ⟨scopes, locals, warnings⟩ q hr hx
  cases front with
  | none =>
    obtain rfl : scopes = [] := hr
    cases hx
    exact ⟨rfl, rfl, (List.append_nil _).symm⟩
  | some names =>
    obtain ⟨scope, outer, rfl, hhas⟩ : ∃ scope outer, scopes = scope :: outer ∧ _ := hr
    have hx : warnIf (scope.has name.text) (.redeclaration name.text name.line)
        ⟨scope.put name.text .declared :: outer, locals, warnings⟩ = .ok () q := hx
    have hrepeated : decide (Site.Repeated ⟨names, name⟩) = scope.has name.text := by
      rw [Bool.eq_iff_iff, decide_eq_true_eq, hhas]
      rfl
    cases hagain : scope.has name.text with
    | true =>
      rw [hagain] at hx hrepeated
      cases hx
      refine ⟨holds_put hhas, rfl, ?_⟩
      simp [Front.sites, hrepeated, redeclared, ScopeWarning.redeclared?]
    | false =>
      rw [hagain] at hx hrepeated
      cases hx
      refine ⟨holds_put hhas, rfl, ?_⟩
      simp [Front.sites, hrepeated]

lemma warnIf_reports {c : Bool} {w : ScopeWarning} (hw : w.redeclared? = none) :
    Reports front front [] (warnIf c w) := by
  refine .still fun r q hx => ?_
  cases c with
  | false =>
    cases hx
    exact ⟨rfl, rfl⟩
  | true =>
    cases hx
    refine ⟨rfl, ?_⟩
    show redeclared (r.warnings ++ [w]) = _
    simp [redeclared, hw]

lemma locate_reports (id : OccurrenceId) (text : String) : Reports front front [] (locate id text) :=
  .still fun _ _ hx => ⟨(locate_locates hx).scopes, congrArg redeclared (locate_warnings hx)⟩

lemma read_reports (kind : NameKind) (use : Occurrence OccurrenceId) :
    Reports front front [] (read region kind use) := by
  cases kind with
  | identifier =>
    have hcheck : Reports front front [] (checkReadable use.toIdent) := .still fun r q hx => by
      obtain ⟨rfl, -⟩ := checkReadable_ok hx
      exact ⟨rfl, rfl⟩
    exact hcheck.bind (locate_reports use.id use.text)
  | this | super => exact (warnIf_reports rfl).bind (locate_reports use.id _)

lemma params_report : ∀ (names : List String) (ps : List Ident),
    Reports (some names) (some (names ++ ps.map (·.text))) (paramSites names ps) (params ps)
  | names, [] => by
    rw [List.map_nil, List.append_nil]
    exact .pure
  | names, p :: ps => by
    have hrest := params_report (names ++ [p.text]) ps
    rw [List.append_assoc] at hrest
    have hdefine : Reports (Front.after (some names) [p.text]) (Front.after (some names) [p.text]) [] (define p.text) :=
      define_again_reports p.text
    exact (declare_reports p).bind (hdefine.bind hrest)

lemma reservedNames_report (inSubclass : Bool) :
    ∃ names, Reports (some []) (some names) [] (reservedNames inSubclass) := by
  cases inSubclass with
  | false => exact ⟨_, (define_reports "this").bind .pure⟩
  | true => exact ⟨_, (define_reports "this").bind (define_reports "super")⟩

/-! ### Trees -/

mutual

theorem expr_reports : ∀ e, Reports front front [] (expr region e)
  | .literal _ => by
    rw [expr]
    exact .pure
  | .name kind use => by
    rw [expr]
    exact read_reports kind use
  | .superGet keyword _ => by
    rw [expr]
    exact read_reports .super keyword
  | .assign target e => by
    rw [expr]
    exact (expr_reports e).bind (locate_reports target.id target.text)
  | .unary _ _ e | .group e | .get e _ => by
    rw [expr]
    exact expr_reports e
  | .binary _ _ e e' | .logical _ _ e e' | .set e _ e' => by
    rw [expr]
    exact (expr_reports e).bind (expr_reports e')
  | .call _ e es => by
    rw [expr]
    exact (expr_reports e).bind (exprs_report es)

theorem exprs_report : ∀ es, Reports front front [] (exprs region es)
  | [] => by
    rw [exprs]
    exact .pure
  | e :: es => by
    rw [exprs]
    exact (expr_reports e).bind (exprs_report es)

end

lemma exprOption_reports (e : Option (Expr OccurrenceId)) : Reports front front [] (exprOption region e) := by
  cases e with
  | none => exact .pure
  | some e => exact expr_reports e

lemma superclass_reports (name : Ident) (parent : Option (Occurrence OccurrenceId)) :
    Reports front front [] (superclass region name parent) := by
  cases parent with
  | none => exact .pure
  | some use => exact (warnIf_reports rfl).bind (read_reports .identifier use)

/-- A declaration whose value is resolved between declaring and defining the name. -/
lemma declaration_reports (name : Ident) (h : ∀ front, Reports front front [] x) :
    Reports front (front.after [name.text]) (front.sites name) (do declare name; x; define name.text) := by
  have hall := (declare_reports name).bind ((h (front.after [name.text])).bind (define_again_reports name.text))
  rwa [List.append_nil, List.append_nil] at hall

/-- A declaration whose name is defined at once. -/
lemma definition_reports (name : Ident) (h : ∀ front, Reports front front ds x) :
    Reports front (front.after [name.text]) (front.sites name ++ ds)
      (do declare name; define name.text; x) :=
  (declare_reports name).bind ((define_again_reports name.text).bind (h _))

mutual

theorem stmt_reports : ∀ (front : Front) (region : Region) (s : Stmt OccurrenceId),
    Reports front (front.after s.scopeNames) (s.sites front) (stmt region s)
  | front, region, .expr e | front, region, .print e => by
    rw [stmt, Stmt.sites, Stmt.scopeNames, Front.after_nil]
    exact expr_reports e
  | front, region, .letVar name v => by
    rw [stmt, Stmt.sites]
    exact declaration_reports name fun _ => exprOption_reports v
  | front, region, .constVar name v => by
    rw [stmt, Stmt.sites]
    exact declaration_reports name fun _ => expr_reports v
  | front, region, .block body => by
    rw [stmt, Stmt.sites, Stmt.scopeNames, Front.after_nil]
    exact (stmts_report (some []) region body).inScope
  | front, region, .ifThen c s | front, region, .while c s => by
    rw [stmt, Stmt.sites, Stmt.scopeNames]
    exact (expr_reports c).bind (stmt_reports front region s)
  | front, region, .ifElse c s s' => by
    rw [stmt, Stmt.sites, Stmt.scopeNames, ← Front.after_after]
    exact (expr_reports c).bind ((stmt_reports front region s).bind (stmt_reports _ region s'))
  | front, region, .function d => by
    rw [stmt, Stmt.sites]
    exact definition_reports d.name fun front => function_reports front region.nested d
  | front, region, .return line v => by
    rw [stmt, Stmt.sites, Stmt.scopeNames, Front.after_nil]
    split
    · exact fun r q hr hx => nomatch hx
    · exact exprOption_reports v
  | front, region, .classDecl name p ms ss => by
    rw [stmt, Stmt.sites]
    obtain ⟨names, hreserved⟩ := reservedNames_report p.isSome
    have hmethods : ∀ front, Reports front front (FunctionDecl.sitesList ms)
        (inScope (do reservedNames p.isSome; methods p.isSome ms)) := fun _ =>
      (hreserved.bind (methods_report (some names) p.isSome ms)).inScope
    exact (superclass_reports name p).bind
      (definition_reports name fun front => (hmethods front).bind (statics_report front ss))

theorem stmts_report : ∀ (front : Front) (region : Region) (ss : List (Stmt OccurrenceId)),
    Reports front (front.after (ss.flatMap Stmt.scopeNames)) (Stmt.sitesList front ss) (stmts region ss)
  | front, region, [] => by
    rw [stmts, Stmt.sitesList, List.flatMap_nil, Front.after_nil]
    exact .pure
  | front, region, s :: ss => by
    rw [stmts, Stmt.sitesList, List.flatMap_cons, ← Front.after_after]
    exact (stmt_reports front region s).bind (stmts_report _ region ss)

theorem function_reports : ∀ (front : Front) (region : Region) (d : FunctionDecl (Stmt OccurrenceId)),
    Reports front front (FunctionDecl.sites d) (function region d)
  | front, region, ⟨name, ps, body⟩ => by
    rw [function, FunctionDecl.sites]
    exact ((params_report [] ps).bind (stmts_report _ region body)).inScope

theorem methods_report : ∀ (front : Front) (inSubclass : Bool) (ds : List (FunctionDecl (Stmt OccurrenceId))),
    Reports front front (FunctionDecl.sitesList ds) (methods inSubclass ds)
  | front, inSubclass, [] => by
    rw [methods, FunctionDecl.sitesList]
    exact .pure
  | front, inSubclass, d :: ds => by
    rw [methods, FunctionDecl.sitesList]
    exact (function_reports front _ d).bind (methods_report front inSubclass ds)

theorem statics_report : ∀ (front : Front) (ds : List (FunctionDecl (Stmt OccurrenceId))),
    Reports front front (FunctionDecl.sitesList ds) (statics ds)
  | front, [] => by
    rw [statics, FunctionDecl.sitesList]
    exact .pure
  | front, d :: ds => by
    rw [statics, FunctionDecl.sitesList]
    exact (function_reports front .function d).bind (statics_report front ds)

end

/-- **An accepted program is warned of the repeated ones among its sites**, each once and in their order. -/
theorem resolve_reports {program : Program OccurrenceId} {res : Resolution}
    (h : (Resolver.empty.resolve program).1 = .ok res) :
    redeclared res.warnings = ((Stmt.sitesList none program).filter (·.Repeated)).map (·.name) := by
  obtain ⟨q, htop, rfl⟩ := resolve_ok_iff.1 h
  have hrun : stmts .topLevel program .empty = .ok () q := by
    rw [← stmtsT_run]
    exact (topLevel_ok htop).1
  obtain ⟨-, -, hwarned⟩ := stmts_report none .topLevel program .empty q rfl hrun
  exact hwarned

end Resolving

end ScriptLang

import ScriptLang.Proofs.Addressing.Recording
import ScriptLang.Proofs.Tree.Regular

/-!
# What resolving lets be read

At the moment of an expression that reads a variable, the innermost scope that has the name has it defined:
only the name of the declaration that is being resolved is declared and not defined, and reading that is an
error.

* `Settled`, `Guarded` — scopes without a name that is only declared, or with at most one;
* `Readable` — at most the innermost scope has names that are not defined, and what an expression reads is spelled
  as it is looked up and defined where it is found;
* `stmtT_readable` — all moments of a regular statement are readable.
-/

namespace ScriptLang

/-- All names of a scope are defined. -/
def Scope.Settled (scope : Scope) : Prop := ∀ name, scope.get? name ≠ some .declared

/-- All names of the scopes are defined. -/
def Settled (scopes : List Scope) : Prop := ∀ scope ∈ scopes, scope.Settled

/-- All names of the scopes are defined, but for plain names in the innermost one. -/
structure Guarded (scopes : List Scope) : Prop where
  outer : Settled scopes.tail
  reserved : ∀ scope ∈ scopes.head?, scope.get? "this" ≠ some .declared ∧ scope.get? "super" ≠ some .declared

variable {ι : Type} {scopes : List Scope} {scope : Scope} {text : String}

lemma Settled.cons (hs : scope.Settled) (h : Settled scopes) : Settled (scope :: scopes) :=
  List.forall_mem_cons.2 ⟨hs, h⟩

lemma Settled.tail (h : Settled scopes) : Settled scopes.tail := fun s hs => h s (List.mem_of_mem_tail hs)

lemma Settled.guarded (h : Settled scopes) : Guarded scopes := by
  refine ⟨h.tail, fun s hs => ?_⟩
  have hmem := List.mem_of_mem_head? hs
  exact ⟨h s hmem "this", h s hmem "super"⟩

lemma settled_empty : Scope.Settled [] := nofun

lemma settled_reservedScope (inSubclass : Bool) : (Resolving.reservedScope inSubclass).Settled := by
  intro name
  cases inSubclass
  · simp [Resolving.reservedScope, Table.get?]
  · simp only [Resolving.reservedScope, Table.get?, if_true]
    split
    · simp
    · split <;> simp

lemma Guarded.declare {name : Ident} (h : Settled scopes) (hn : name.Plain) :
    Guarded (enter name.text .declared scopes) := by
  refine ⟨?_, fun s hs => ?_⟩
  · rw [enter_tail]
    exact h.tail
  · rcases scopes with _ | ⟨scope, outer⟩
    · cases hs
    · obtain rfl := Option.some.inj hs
      have hscope := h scope List.mem_cons_self
      rw [Table.get?_put, Table.get?_put, if_neg hn.1, if_neg hn.2]
      exact ⟨hscope "this", hscope "super"⟩

lemma settled_introduce (h : Settled scopes) (name : String) : Settled (introduce name scopes) := by
  rcases scopes with _ | ⟨scope, outer⟩
  · exact h
  · obtain ⟨hs, ho⟩ := List.forall_mem_cons.1 h
    refine Settled.cons (fun other => ?_) ho
    show ((scope.put name .declared).put name .defined).get? other ≠ _
    rw [Table.get?_put, Table.get?_put]
    split
    · simp
    · exact hs other

lemma Stmt.scopesAfter_settled (s : Stmt ι) (h : Settled scopes) : Settled (s.scopesAfter scopes) := by
  induction s, scopes using Stmt.scopesAfter.induct with
  | case5 c yes scopes ih => exact ih h
  | case6 c yes no scopes ih1 ih2 => exact ih2 (ih1 h)
  | case7 c body scopes ih => exact ih h
  | case8 => rwa [Stmt.scopesAfter] <;> assumption
  | _ => exact settled_introduce h _

lemma scopesAfterParams_settled (ps : List Ident) (h : Settled scopes) :
    Settled (scopesAfterParams ps scopes) := by
  induction ps generalizing scopes with
  | nil => exact h
  | cons p ps ih => exact ih (settled_introduce h p.text)

namespace Resolving

/-- The names of the scopes are defined, but for plain names in the innermost one; and what the expression reads is
spelled as it is looked up, and defined where it is found. -/
structure Readable (e : Expr OccurrenceId) (q : Resolver) : Prop where
  guarded : Guarded q.scopes
  defined : ∀ use text, Reads e use text → use.text = text ∧ ∀ d, distance? q.scopes text = some d →
    ∃ scope, q.scopes[d]? = some scope ∧ scope.get? text = some .defined

lemma distance?_eq_some {d : Nat} (h : distance? scopes text = some d) :
    ∃ scope, scopes[d]? = some scope ∧ scope.has text = true := by
  obtain ⟨hd, hhas, -⟩ := List.findIdx?_eq_some_iff_getElem.1 h
  exact ⟨scopes[d], List.getElem?_eq_getElem hd, hhas⟩

lemma get?_eq_defined (h : scope.has text = true) (hd : scope.get? text ≠ some .declared) :
    scope.get? text = some .defined := by
  obtain ⟨b, hb⟩ := Option.isSome_iff_exists.1 h
  cases b with
  | declared => exact absurd hb hd
  | defined => exact hb

lemma defined_of_guarded (hg : Guarded scopes) (hh : ∀ scope ∈ scopes.head?, scope.get? text ≠ some .declared)
    {d : Nat} (hd : distance? scopes text = some d) :
    ∃ scope, scopes[d]? = some scope ∧ scope.get? text = some .defined := by
  obtain ⟨scope, hs, hhas⟩ := distance?_eq_some hd
  refine ⟨scope, hs, get?_eq_defined hhas ?_⟩
  rcases scopes with _ | ⟨inner, outer⟩
  · cases hs
  · rcases d with _ | d
    · exact hh scope hs
    · exact hg.outer scope (List.mem_of_getElem? hs) text

variable {r r' : Resolver} {region : Region}

lemma read_readable {e : Expr OccurrenceId} {kind : NameKind} {use : Occurrence OccurrenceId}
    (h : read region kind use r = .ok () r') (hg : Guarded r.scopes) (hk : kind.Spells use.text)
    (he : ∀ use' text, Reads e use' text → use' = use ∧ text = lookedUp kind use.text) : Readable e r := by
  refine ⟨hg, fun use' text hr => ?_⟩
  obtain ⟨rfl, rfl⟩ := he use' text hr
  cases kind with
  | identifier => exact ⟨rfl, fun d hd => defined_of_guarded hg ((read_ok h).2 rfl) hd⟩
  | this => exact ⟨hk, fun d hd => defined_of_guarded hg (fun s hs => (hg.reserved s hs).1) hd⟩
  | super => exact ⟨hk, fun d hd => defined_of_guarded hg (fun s hs => (hg.reserved s hs).2) hd⟩

mutual

theorem exprT_readable {r r' : Resolver} (hg : Guarded r.scopes) : ∀ e : Expr OccurrenceId, e.Regular →
    (exprT region e).Passes (fun _ _ => True) r r' → (exprT region e).Passes Readable r r'
  | .literal _, _, h => by
    rw [exprT, Traced.passes_visit] at h ⊢
    exact ⟨⟨hg, nofun⟩, h.2.1, fun p hp => absurd hp List.not_mem_nil⟩
  | .name kind use, he, h => by
    rw [exprT, Traced.passes_visit, Traced.passes_lift] at h ⊢
    refine ⟨read_readable h.2 hg he fun _ _ hr => ?_, h.2⟩
    cases hr
    exact ⟨rfl, rfl⟩
  | .superGet keyword property, he, h => by
    rw [exprT, Traced.passes_visit, Traced.passes_lift] at h ⊢
    refine ⟨read_readable h.2 hg he fun _ _ hr => ?_, h.2⟩
    cases hr
    exact ⟨rfl, rfl⟩
  | .assign target value, he, h => by
    rw [exprT, Traced.passes_visit, Traced.passes_bind] at h ⊢
    obtain ⟨-, q, hv, hl⟩ := h
    exact ⟨⟨hg, nofun⟩, q, exprT_readable hg value he hv, Traced.passes_lift.2 (Traced.passes_lift.1 hl)⟩
  | .unary _ _ e, he, h | .group e, he, h | .get e _, he, h => by
    rw [exprT, Traced.passes_visit] at h ⊢
    exact ⟨⟨hg, nofun⟩, exprT_readable hg e he h.2⟩
  | .binary _ _ e e', ⟨he, he'⟩, h | .logical _ _ e e', ⟨he, he'⟩, h | .set e _ e', ⟨he, he'⟩, h => by
    rw [exprT, Traced.passes_visit, Traced.passes_bind] at h ⊢
    obtain ⟨-, q, h1, h2⟩ := h
    have hq := exprT_scopes e h1
    exact ⟨⟨hg, nofun⟩, q, exprT_readable hg e he h1, exprT_readable (hq.symm ▸ hg) e' he' h2⟩
  | .call _ e es, ⟨he, hes⟩, h => by
    rw [exprT, Traced.passes_visit, Traced.passes_bind] at h ⊢
    obtain ⟨-, q, h1, h2⟩ := h
    have hq := exprT_scopes e h1
    exact ⟨⟨hg, nofun⟩, q, exprT_readable hg e he h1, exprsT_readable (hq.symm ▸ hg) es hes h2⟩

theorem exprsT_readable {r r' : Resolver} (hg : Guarded r.scopes) : ∀ es : List (Expr OccurrenceId),
    Expr.RegularList es → (exprsT region es).Passes (fun _ _ => True) r r' →
      (exprsT region es).Passes Readable r r'
  | [], _, h => by
    rw [exprsT, Traced.passes_pure] at h ⊢
    exact h
  | e :: es, ⟨he, hes⟩, h => by
    rw [exprsT, Traced.passes_bind] at h ⊢
    obtain ⟨q, h1, h2⟩ := h
    have hq := exprT_scopes e h1
    exact ⟨q, exprT_readable hg e he h1, exprsT_readable (hq.symm ▸ hg) es hes h2⟩

end

lemma exprOptionT_readable (hg : Guarded r.scopes) (e : Option (Expr OccurrenceId))
    (he : Expr.RegularOption e) (h : (exprOptionT region e).Passes (fun _ _ => True) r r') :
    (exprOptionT region e).Passes Readable r r' := by
  cases e with
  | none => exact Traced.passes_pure.2 (Traced.passes_pure.1 h)
  | some e => exact exprT_readable hg e he h

lemma superclassT_readable {name : Ident} (hg : Guarded r.scopes) (parent : Option (Occurrence OccurrenceId))
    (h : (superclassT region name parent).Passes (fun _ _ => True) r r') :
    (superclassT region name parent).Passes Readable r r' := by
  cases parent with
  | none => exact Traced.passes_pure.2 (Traced.passes_pure.1 h)
  | some use =>
    obtain ⟨q, hw, hr⟩ := Traced.passes_bind.1 h
    obtain ⟨-, hr⟩ := Traced.passes_visit.1 hr
    have hr := Traced.passes_lift.1 hr
    have hq := (warnIf_rescopes (Traced.passes_lift.1 hw)).1
    refine Traced.passes_bind.2 ⟨q, Traced.passes_lift.2 (Traced.passes_lift.1 hw),
      Traced.passes_visit.2 ⟨read_readable hr (hq.symm ▸ hg) trivial fun _ _ h => ?_,
        Traced.passes_lift.2 hr⟩⟩
    cases h
    exact ⟨rfl, rfl⟩

lemma inScopeT_readable {body : Marked Unit} (hs : Settled r.scopes)
    (hbody : ∀ q q', Settled q.scopes → q.scopes = [] :: r.scopes → body.Passes (fun _ _ => True) q q' →
      body.Passes Readable q q')
    (h : (inScopeT body).Passes (fun _ _ => True) r r') : (inScopeT body).Passes Readable r r' := by
  obtain ⟨q, hp, hr'⟩ := inScopeT_passes.1 h
  exact inScopeT_passes.2 ⟨q, hbody _ q (hs.cons settled_empty) rfl hp, hr'⟩

/-- The value of a declaration is read where the declared name is all that is not defined. -/
lemma initializer_readable {name : Ident} {value : Marked Unit} (hs : Settled r.scopes) (hn : name.Plain)
    (hvalue : ∀ q q', Guarded q.scopes → value.Passes (fun _ _ => True) q q' → value.Passes Readable q q')
    (h : Traced.Passes (fun _ _ => True) (do .lift (declare name); value; .lift (define name.text)) r r') :
    Traced.Passes Readable (do .lift (declare name); value; .lift (define name.text)) r r' := by
  obtain ⟨q, hd, h⟩ := Traced.passes_bind.1 h
  obtain ⟨q', h1, h2⟩ := Traced.passes_bind.1 h
  have hd := Traced.passes_lift.1 hd
  have hg : Guarded q.scopes := by
    rw [(declare_rescopes hd).1]
    exact .declare hs hn
  exact Traced.passes_bind.2 ⟨q, Traced.passes_lift.2 hd, Traced.passes_bind.2 ⟨q', hvalue q q' hg h1,
    Traced.passes_lift.2 (Traced.passes_lift.1 h2)⟩⟩

mutual

theorem stmtT_readable {r r' : Resolver} (hs : Settled r.scopes) : ∀ (region : Region)
    (s : Stmt OccurrenceId), s.Regular → (stmtT region s).Passes (fun _ _ => True) r r' →
      (stmtT region s).Passes Readable r r'
  | region, .expr e, he, h | region, .print e, he, h => by
    rw [stmtT] at h ⊢
    exact exprT_readable hs.guarded e he h
  | region, .letVar name value, ⟨hn, hv⟩, h => by
    rw [stmtT] at h ⊢
    exact initializer_readable hs hn (fun _ _ hg => exprOptionT_readable hg value hv) h
  | region, .constVar name value, ⟨hn, hv⟩, h => by
    rw [stmtT] at h ⊢
    exact initializer_readable hs hn (fun _ _ hg => exprT_readable hg value hv) h
  | region, .block body, hb, h => by
    rw [stmtT] at h ⊢
    exact inScopeT_readable hs (fun q q' hq _ h => stmtsT_readable hq region body hb h) h
  | region, .ifThen c yes, ⟨hc, _, hy⟩, h => by
    rw [stmtT, Traced.passes_bind] at h ⊢
    obtain ⟨q, h1, h2⟩ := h
    have hq : Settled q.scopes := (exprT_scopes c h1).symm ▸ hs
    exact ⟨q, exprT_readable hs.guarded c hc h1, stmtT_readable hq region yes hy h2⟩
  | region, .ifElse c yes no, ⟨hc, ⟨_, hy⟩, _, hn⟩, h => by
    rw [stmtT, Traced.passes_bind] at h ⊢
    obtain ⟨q, h1, h⟩ := h
    obtain ⟨q', h2, h3⟩ := Traced.passes_bind.1 h
    have hq : Settled q.scopes := (exprT_scopes c h1).symm ▸ hs
    have hq' : Settled q'.scopes := (stmtT_scopes yes h2).symm ▸ yes.scopesAfter_settled hq
    exact ⟨q, exprT_readable hs.guarded c hc h1,
      Traced.passes_bind.2 ⟨q', stmtT_readable hq region yes hy h2, stmtT_readable hq' region no hn h3⟩⟩
  | region, .while c body, ⟨hc, _, hb⟩, h => by
    rw [stmtT, Traced.passes_bind] at h ⊢
    obtain ⟨q, h1, h2⟩ := h
    have hq : Settled q.scopes := (exprT_scopes c h1).symm ▸ hs
    exact ⟨q, exprT_readable hs.guarded c hc h1, stmtT_readable hq region body hb h2⟩
  | region, .function decl, hd, h => by
    rw [stmtT, Traced.passes_bind] at h ⊢
    obtain ⟨q, h1, h⟩ := h
    obtain ⟨q', h2, h3⟩ := Traced.passes_bind.1 h
    have h1 := Traced.passes_lift.1 h1
    have h2 := Traced.passes_lift.1 h2
    have hq' : Settled q'.scopes := by
      rw [(define_rescopes h2).1, (declare_rescopes h1).1]
      exact settled_introduce hs decl.name.text
    exact ⟨q, Traced.passes_lift.2 h1, Traced.passes_bind.2 ⟨q', Traced.passes_lift.2 h2,
      functionT_readable hq' region.nested decl hd h3⟩⟩
  | region, .return line value, hv, h => by
    rw [stmtT] at h ⊢
    split at h
    · cases h.1
    · next hr =>
      rw [if_neg hr]
      exact exprOptionT_readable hs.guarded value hv h
  | region, .classDecl name parent methods statics, ⟨_, hm, hst⟩, h => by
    rw [stmtT, Traced.passes_bind] at h ⊢
    obtain ⟨q, h1, h⟩ := h
    obtain ⟨q1, h2, h⟩ := Traced.passes_bind.1 h
    obtain ⟨q2, h3, h⟩ := Traced.passes_bind.1 h
    obtain ⟨q3, h4, h5⟩ := Traced.passes_bind.1 h
    have h2 := Traced.passes_lift.1 h2
    have h3 := Traced.passes_lift.1 h3
    have hq2 : Settled q2.scopes := by
      rw [(define_rescopes h3).1, (declare_rescopes h2).1, superclassT_scopes h1]
      exact settled_introduce hs name.text
    have h4' := inScopeT_readable hq2 (fun p p' hp hpe h => by
      obtain ⟨p1, hres, hms⟩ := Traced.passes_bind.1 h
      have hres := Traced.passes_lift.1 hres
      have hp1 : Settled p1.scopes := by
        rw [(reservedNames_rescopes hpe hres).1]
        exact hq2.cons (settled_reservedScope parent.isSome)
      exact Traced.passes_bind.2 ⟨p1, Traced.passes_lift.2 hres,
        methodsT_readable hp1 parent.isSome methods hm hms⟩) h4
    have hq3 : Settled q3.scopes := by
      obtain ⟨p, hp, rfl⟩ := inScopeT_passes.1 h4
      obtain ⟨p1, hres, hms⟩ := Traced.passes_bind.1 hp
      rw [methodsT_scopes methods hms, (reservedNames_rescopes rfl (Traced.passes_lift.1 hres)).1]
      exact hq2
    exact ⟨q, superclassT_readable hs.guarded parent h1, Traced.passes_bind.2 ⟨q1, Traced.passes_lift.2 h2,
      Traced.passes_bind.2 ⟨q2, Traced.passes_lift.2 h3, Traced.passes_bind.2 ⟨q3, h4',
        staticsT_readable hq3 statics hst h5⟩⟩⟩⟩

theorem stmtsT_readable {r r' : Resolver} (hs : Settled r.scopes) : ∀ (region : Region)
    (ss : List (Stmt OccurrenceId)), Stmt.RegularList ss → (stmtsT region ss).Passes (fun _ _ => True) r r' →
      (stmtsT region ss).Passes Readable r r'
  | region, [], _, h => by
    rw [stmtsT, Traced.passes_pure] at h ⊢
    exact h
  | region, s :: ss, ⟨hreg, hregs⟩, h => by
    rw [stmtsT, Traced.passes_bind] at h ⊢
    obtain ⟨q, h1, h2⟩ := h
    have hq : Settled q.scopes := (stmtT_scopes s h1).symm ▸ s.scopesAfter_settled hs
    exact ⟨q, stmtT_readable hs region s hreg h1, stmtsT_readable hq region ss hregs h2⟩

theorem functionT_readable {r r' : Resolver} (hs : Settled r.scopes) : ∀ (region : Region)
    (d : FunctionDecl (Stmt OccurrenceId)), FunctionDecl.Regular d →
      (functionT region d).Passes (fun _ _ => True) r r' → (functionT region d).Passes Readable r r'
  | region, ⟨name, ps, body⟩, ⟨_, _, hb⟩, h => by
    rw [functionT] at h ⊢
    refine inScopeT_readable hs (fun q q' hq _ h => ?_) h
    obtain ⟨q1, h1, h2⟩ := Traced.passes_bind.1 h
    have h1 := Traced.passes_lift.1 h1
    have hq1 : Settled q1.scopes := by
      rw [(params_rescopes h1).1]
      exact scopesAfterParams_settled ps hq
    exact Traced.passes_bind.2 ⟨q1, Traced.passes_lift.2 h1, stmtsT_readable hq1 region body hb h2⟩

theorem methodsT_readable {r r' : Resolver} (hs : Settled r.scopes) : ∀ (inSubclass : Bool)
    (ds : List (FunctionDecl (Stmt OccurrenceId))), FunctionDecl.RegularList ds →
      (methodsT inSubclass ds).Passes (fun _ _ => True) r r' →
        (methodsT inSubclass ds).Passes Readable r r'
  | inSubclass, [], _, h => by
    rw [methodsT, Traced.passes_pure] at h ⊢
    exact h
  | inSubclass, d :: ds, ⟨hd, hds⟩, h => by
    rw [methodsT, Traced.passes_bind] at h ⊢
    obtain ⟨q, h1, h2⟩ := h
    have hq : Settled q.scopes := (functionT_scopes d h1).symm ▸ hs
    exact ⟨q, functionT_readable hs _ d hd h1, methodsT_readable hq inSubclass ds hds h2⟩

theorem staticsT_readable {r r' : Resolver} (hs : Settled r.scopes) :
    ∀ ds : List (FunctionDecl (Stmt OccurrenceId)), FunctionDecl.RegularList ds →
      (staticsT ds).Passes (fun _ _ => True) r r' → (staticsT ds).Passes Readable r r'
  | [], _, h => by
    rw [staticsT, Traced.passes_pure] at h ⊢
    exact h
  | d :: ds, ⟨hd, hds⟩, h => by
    rw [staticsT, Traced.passes_bind] at h ⊢
    obtain ⟨q, h1, h2⟩ := h
    have hq : Settled q.scopes := (functionT_scopes d h1).symm ▸ hs
    exact ⟨q, functionT_readable hs _ d hd h1, staticsT_readable hq ds hds h2⟩

end

end Resolving

end ScriptLang

import ScriptLang.Proofs.Addressing.TracedResolving

/-!
# What resolving does to scopes

Expressions leave the scopes as they are.  A declaration enters its name into the innermost scope; whatever
opens a scope closes it again, so the scopes around it come back.

* `declare_rescopes`, `locate_locates`, `read_ok`, … — the single steps;
* `exprT_scopes`, `stmtT_scopes`, … — the scopes behind an expression, a statement, a function.
-/

namespace ScriptLang

variable {ι : Type}

/-- The scopes with a name in a state entered into the innermost one. -/
def enter (name : String) (b : Binding) : List Scope → List Scope
  | [] => []
  | scope :: outer => scope.put name b :: outer

/-- The scopes in which a name was first declared and then defined. -/
def introduce (name : String) (scopes : List Scope) : List Scope :=
  enter name .defined (enter name .declared scopes)

/-- The scopes behind a statement. -/
def Stmt.scopesAfter : Stmt ι → List Scope → List Scope
  | .letVar name _, scopes | .constVar name _, scopes => introduce name.text scopes
  | .function decl, scopes => introduce decl.name.text scopes
  | .classDecl name _ _ _, scopes => introduce name.text scopes
  | .ifThen _ yes, scopes => yes.scopesAfter scopes
  | .ifElse _ yes no, scopes => no.scopesAfter (yes.scopesAfter scopes)
  | .while _ body, scopes => body.scopesAfter scopes
  | _, scopes => scopes

/-- The scopes behind several statements. -/
def scopesAfterAll (ss : List (Stmt ι)) (scopes : List Scope) : List Scope :=
  ss.foldl (fun scopes s => s.scopesAfter scopes) scopes

/-- The scopes behind the parameters of a function. -/
def scopesAfterParams (ps : List Ident) (scopes : List Scope) : List Scope :=
  ps.foldl (fun scopes p => introduce p.text scopes) scopes

@[simp] lemma enter_tail (name : String) (b : Binding) (scopes : List Scope) :
    (enter name b scopes).tail = scopes.tail := by
  cases scopes <;> rfl

@[simp] lemma introduce_tail (name : String) (scopes : List Scope) :
    (introduce name scopes).tail = scopes.tail := by
  rw [introduce, enter_tail, enter_tail]

lemma Stmt.scopesAfter_tail (s : Stmt ι) (scopes : List Scope) :
    (s.scopesAfter scopes).tail = scopes.tail := by
  induction s, scopes using Stmt.scopesAfter.induct with
  | case5 c yes scopes ih => rw [Stmt.scopesAfter, ih]
  | case6 c yes no scopes ih1 ih2 => rw [Stmt.scopesAfter, ih2, ih1]
  | case7 c body scopes ih => rw [Stmt.scopesAfter, ih]
  | _ => simp [Stmt.scopesAfter]

lemma scopesAfterAll_tail (ss : List (Stmt ι)) (scopes : List Scope) :
    (scopesAfterAll ss scopes).tail = scopes.tail := by
  induction ss generalizing scopes with
  | nil => rfl
  | cons s ss ih => exact (ih (s.scopesAfter scopes)).trans (s.scopesAfter_tail scopes)

lemma scopesAfterParams_tail (ps : List Ident) (scopes : List Scope) :
    (scopesAfterParams ps scopes).tail = scopes.tail := by
  induction ps generalizing scopes with
  | nil => rfl
  | cons p ps ih => exact (ih (introduce p.text scopes)).trans (introduce_tail p.text scopes)

namespace Resolving

variable {r r' r'' : Resolver} {name : Ident} {region : Region}

/-! ### Single steps -/

/-- The step leaves the distances as they are and makes these the scopes. -/
def Rescopes (scopes : List Scope) (r r' : Resolver) : Prop :=
  r'.scopes = scopes ∧ r'.locals = r.locals

lemma Rescopes.refl : Rescopes r.scopes r r := ⟨rfl, rfl⟩

lemma bind_ok {x y : Resolving Unit} (h : (do x; y) r = .ok () r'') :
    ∃ r', x r = .ok () r' ∧ y r' = .ok () r'' := by
  have hp : Traced.Passes (fun (_ : Unit) _ => True) (do Traced.lift x; Traced.lift y) r r'' :=
    ⟨h, fun _ _ => trivial⟩
  obtain ⟨r', h1, h2⟩ := Traced.passes_bind.1 hp
  exact ⟨r', h1.1, h2.1⟩

lemma bind_rescopes {text : String} {b : Binding} (h : bind text b r = .ok () r') :
    Rescopes (enter text b r.scopes) r r' := by
  rcases r with ⟨_ | ⟨scope, outer⟩, locals, warnings⟩ <;> cases h <;> exact ⟨rfl, rfl⟩

lemma warnIf_rescopes {c : Bool} {w : ScopeWarning} (h : warnIf c w r = .ok () r') :
    Rescopes r.scopes r r' := by
  unfold warnIf at h
  split at h <;> cases h <;> exact ⟨rfl, rfl⟩

lemma define_rescopes {text : String} (h : define text r = .ok () r') :
    Rescopes (enter text .defined r.scopes) r r' := bind_rescopes h

lemma declare_eq (name : Ident) (r : Resolver) :
    ∃ again, declare name r =
      (do bind name.text .declared; warnIf again (.redeclaration name.text name.line)) r := by
  rcases r with ⟨_ | ⟨scope, outer⟩, locals, warnings⟩
  · exact ⟨false, rfl⟩
  · exact ⟨scope.has name.text, rfl⟩

lemma declare_rescopes (h : declare name r = .ok () r') :
    Rescopes (enter name.text .declared r.scopes) r r' := by
  obtain ⟨again, heq⟩ := declare_eq name r
  obtain ⟨q, hb, hw⟩ := bind_ok (heq.symm.trans h)
  have hb := bind_rescopes hb
  have hw := warnIf_rescopes hw
  exact ⟨hw.1.trans hb.1, hw.2.trans hb.2⟩

lemma params_rescopes : ∀ {ps : List Ident} {r : Resolver}, params ps r = .ok () r' →
    Rescopes (scopesAfterParams ps r.scopes) r r'
  | [], r, h => by
    cases h
    exact .refl
  | p :: ps, r, h => by
    obtain ⟨q, hd, h⟩ := bind_ok h
    obtain ⟨q', hd', h⟩ := bind_ok h
    have hd := declare_rescopes hd
    have hd' := define_rescopes hd'
    have hps := params_rescopes h
    refine ⟨?_, hps.2.trans (hd'.2.trans hd.2)⟩
    rw [hps.1, hd'.1, hd.1]
    rfl

/-- The scope of the reserved names around the methods of a class. -/
def reservedScope (inSubclass : Bool) : Scope :=
  if inSubclass then [("this", .defined), ("super", .defined)] else [("this", .defined)]

lemma reservedNames_rescopes {inSubclass : Bool} {outer : List Scope} (hr : r.scopes = [] :: outer)
    (h : reservedNames inSubclass r = .ok () r') : Rescopes (reservedScope inSubclass :: outer) r r' := by
  obtain ⟨q, hd, h⟩ := bind_ok h
  have hd := define_rescopes hd
  rw [hr] at hd
  cases inSubclass
  · cases h
    exact hd
  · have hs := define_rescopes h
    rw [hd.1] at hs
    exact ⟨hs.1, hs.2.trans hd.2⟩

lemma reservedNames_locals {inSubclass : Bool} (h : reservedNames inSubclass r = .ok () r') :
    r'.locals = r.locals := by
  obtain ⟨q, hd, h⟩ := bind_ok h
  have hd := define_rescopes hd
  cases inSubclass
  · cases h
    exact hd.2
  · exact (define_rescopes h).2.trans hd.2

/-! ### Reading a name -/

/-- The name under which a word that reads a variable is looked up. -/
def lookedUp (kind : NameKind) (text : String) : String :=
  match kind with
  | .identifier => text
  | .this => "this"
  | .super => "super"

/-- The step leaves the scopes as they are and enters nothing but the distance of a name under a use. -/
structure Locates (id : OccurrenceId) (text : String) (r r' : Resolver) : Prop where
  scopes : r'.scopes = r.scopes
  other : ∀ k, k ≠ id → r'.locals[k]? = r.locals[k]?
  self : r.locals[id]? = none → r'.locals[id]? = distance? r.scopes text

section Locate

variable {id : OccurrenceId} {text : String} {depth : Nat}

lemma locate_none (h : distance? r.scopes text = none) : locate id text r = .ok () r := by
  unfold locate
  show EStateM.Result.ok () _ = _
  simp only [h]

lemma locate_some (h : distance? r.scopes text = some depth) :
    locate id text r = .ok () { r with locals := r.locals.insert id depth } := by
  unfold locate
  show EStateM.Result.ok () _ = _
  simp only [h]

lemma locate_locates (h : locate id text r = .ok () r') : Locates id text r r' := by
  rcases hd : distance? r.scopes text with _ | depth
  · rw [locate_none hd] at h
    cases h
    exact ⟨rfl, fun _ _ => rfl, fun hn => hn.trans hd.symm⟩
  · rw [locate_some hd] at h
    cases h
    refine ⟨rfl, fun k hk => ?_, fun _ => ?_⟩
    · rw [Std.TreeMap.getElem?_insert, if_neg]
      rw [Nat.compare_eq_eq]
      exact fun h => hk h.symm
    · rw [Std.TreeMap.getElem?_insert_self, hd]

lemma locate_warnings (h : locate id text r = .ok () r') : r'.warnings = r.warnings := by
  rcases hd : distance? r.scopes text with _ | depth
  · cases (locate_none hd).symm.trans h
    rfl
  · cases (locate_some hd).symm.trans h
    rfl

end Locate

lemma checkReadable_ok (h : checkReadable name r = .ok () r') :
    r' = r ∧ ∀ scope ∈ r.scopes.head?, scope.get? name.text ≠ some .declared := by
  rcases r with ⟨_ | ⟨scope, outer⟩, locals, warnings⟩
  · cases h
    exact ⟨rfl, nofun⟩
  · have hstep : checkReadable name ⟨scope :: outer, locals, warnings⟩ =
        (if scope.get? name.text = some .declared then throw (.ownInitializer name.text name.line)
          else pure () : Resolving Unit) ⟨scope :: outer, locals, warnings⟩ := rfl
    rw [hstep] at h
    split at h
    · cases h
    · next hc =>
      cases h
      refine ⟨rfl, fun s hs => ?_⟩
      obtain rfl := Option.some.inj hs
      exact hc

lemma read_ok {kind : NameKind} {use : Occurrence OccurrenceId}
    (h : read region kind use r = .ok () r') :
    Locates use.id (lookedUp kind use.text) r r' ∧
      (kind = .identifier → ∀ scope ∈ r.scopes.head?, scope.get? use.text ≠ some .declared) := by
  cases kind with
  | identifier =>
    obtain ⟨q, hc, hl⟩ := bind_ok h
    obtain ⟨rfl, hc⟩ := checkReadable_ok hc
    exact ⟨locate_locates hl, fun _ => hc⟩
  | this | super =>
    obtain ⟨q, hw, hl⟩ := bind_ok h
    obtain ⟨hs, hlocals⟩ := warnIf_rescopes hw
    obtain ⟨h1, h2, h3⟩ := locate_locates hl
    rw [hlocals] at h2 h3
    rw [hs] at h1 h3
    exact ⟨⟨h1, h2, h3⟩, nofun⟩

/-! ### Trees -/

section Trees

variable {G : Expr OccurrenceId → Resolver → Prop}

lemma inScopeT_passes {body : Marked Unit} :
    (inScopeT body).Passes G r r' ↔ ∃ q, body.Passes G { r with scopes := [] :: r.scopes } q ∧
      r' = { q with scopes := q.scopes.tail } := by
  unfold inScopeT
  rw [Traced.passes_bind]
  constructor
  · rintro ⟨q, hq, h⟩
    obtain ⟨q', hbody, hq'⟩ := Traced.passes_bind.1 h
    cases Traced.passes_lift.1 hq
    cases Traced.passes_lift.1 hq'
    exact ⟨q', hbody, rfl⟩
  · rintro ⟨q, hbody, rfl⟩
    exact ⟨_, Traced.passes_lift.2 rfl, Traced.passes_bind.2 ⟨q, hbody, Traced.passes_lift.2 rfl⟩⟩

lemma inScopeT_scopes {body : Marked Unit} (h : (inScopeT body).Passes G r r')
    (hbody : ∀ q q', q.scopes = [] :: r.scopes → body.Passes G q q' → q'.scopes.tail = r.scopes) :
    r'.scopes = r.scopes := by
  obtain ⟨q, hp, rfl⟩ := inScopeT_passes.1 h
  exact hbody _ q rfl hp

mutual

theorem exprT_scopes {r r' : Resolver} : ∀ e, (exprT region e).Passes G r r' → r'.scopes = r.scopes
  | .literal _, h => by
    rw [exprT, Traced.passes_visit, Traced.passes_pure] at h
    rw [h.2]
  | .name kind use, h => by
    rw [exprT, Traced.passes_visit, Traced.passes_lift] at h
    exact (read_ok h.2).1.scopes
  | .superGet keyword property, h => by
    rw [exprT, Traced.passes_visit, Traced.passes_lift] at h
    exact (read_ok h.2).1.scopes
  | .assign target value, h => by
    rw [exprT, Traced.passes_visit, Traced.passes_bind] at h
    obtain ⟨-, q, hv, hl⟩ := h
    exact (locate_locates (Traced.passes_lift.1 hl)).scopes.trans (exprT_scopes value hv)
  | .unary _ _ e, h | .group e, h | .get e _, h => by
    rw [exprT, Traced.passes_visit] at h
    exact exprT_scopes e h.2
  | .binary _ _ e e', h | .logical _ _ e e', h | .set e _ e', h => by
    rw [exprT, Traced.passes_visit, Traced.passes_bind] at h
    obtain ⟨-, q, he, he'⟩ := h
    exact (exprT_scopes e' he').trans (exprT_scopes e he)
  | .call _ e es, h => by
    rw [exprT, Traced.passes_visit, Traced.passes_bind] at h
    obtain ⟨-, q, he, hes⟩ := h
    exact (exprsT_scopes es hes).trans (exprT_scopes e he)

theorem exprsT_scopes {r r' : Resolver} : ∀ es, (exprsT region es).Passes G r r' → r'.scopes = r.scopes
  | [], h => by
    rw [exprsT, Traced.passes_pure] at h
    rw [h]
  | e :: es, h => by
    rw [exprsT, Traced.passes_bind] at h
    obtain ⟨q, he, hes⟩ := h
    exact (exprsT_scopes es hes).trans (exprT_scopes e he)

end

lemma exprOptionT_scopes {e : Option (Expr OccurrenceId)} (h : (exprOptionT region e).Passes G r r') :
    r'.scopes = r.scopes := by
  cases e with
  | none => rw [Traced.passes_pure.1 h]
  | some e => exact exprT_scopes e h

lemma superclassT_scopes {parent : Option (Occurrence OccurrenceId)}
    (h : (superclassT region name parent).Passes G r r') : r'.scopes = r.scopes := by
  cases parent with
  | none => rw [Traced.passes_pure.1 h]
  | some use =>
    obtain ⟨q, hw, hr⟩ := Traced.passes_bind.1 h
    obtain ⟨-, hr⟩ := Traced.passes_visit.1 hr
    exact (read_ok (Traced.passes_lift.1 hr)).1.scopes.trans (warnIf_rescopes (Traced.passes_lift.1 hw)).1

mutual

theorem stmtT_scopes {r r' : Resolver} {region : Region} : ∀ s, (stmtT region s).Passes G r r' →
    r'.scopes = s.scopesAfter r.scopes
  | .expr e, h | .print e, h => by
    rw [stmtT] at h
    exact exprT_scopes e h
  | .letVar name value, h => by
    rw [stmtT, Traced.passes_bind] at h
    obtain ⟨q, hd, h⟩ := h
    obtain ⟨q', hv, hd'⟩ := Traced.passes_bind.1 h
    rw [(define_rescopes (Traced.passes_lift.1 hd')).1, exprOptionT_scopes hv,
      (declare_rescopes (Traced.passes_lift.1 hd)).1]
    rfl
  | .constVar name value, h => by
    rw [stmtT, Traced.passes_bind] at h
    obtain ⟨q, hd, h⟩ := h
    obtain ⟨q', hv, hd'⟩ := Traced.passes_bind.1 h
    rw [(define_rescopes (Traced.passes_lift.1 hd')).1, exprT_scopes value hv,
      (declare_rescopes (Traced.passes_lift.1 hd)).1]
    rfl
  | .block body, h => by
    rw [stmtT] at h
    exact inScopeT_scopes h fun q q' hq hb => by
      rw [stmtsT_scopes body hb, scopesAfterAll_tail, hq, List.tail_cons]
  | .ifThen c yes, h => by
    rw [stmtT, Traced.passes_bind] at h
    obtain ⟨q, hc, hy⟩ := h
    rw [stmtT_scopes yes hy, exprT_scopes c hc]
    rfl
  | .ifElse c yes no, h => by
    rw [stmtT, Traced.passes_bind] at h
    obtain ⟨q, hc, h⟩ := h
    obtain ⟨q', hy, hn⟩ := Traced.passes_bind.1 h
    rw [stmtT_scopes no hn, stmtT_scopes yes hy, exprT_scopes c hc]
    rfl
  | .while c body, h => by
    rw [stmtT, Traced.passes_bind] at h
    obtain ⟨q, hc, hb⟩ := h
    rw [stmtT_scopes body hb, exprT_scopes c hc]
    rfl
  | .function decl, h => by
    rw [stmtT, Traced.passes_bind] at h
    obtain ⟨q, hd, h⟩ := h
    obtain ⟨q', hd', hf⟩ := Traced.passes_bind.1 h
    rw [functionT_scopes decl hf, (define_rescopes (Traced.passes_lift.1 hd')).1,
      (declare_rescopes (Traced.passes_lift.1 hd)).1]
    rfl
  | .return line value, h => by
    rw [stmtT] at h
    split at h
    · cases h.1
    · exact exprOptionT_scopes h
  | .classDecl name parent methods statics, h => by
    rw [stmtT, Traced.passes_bind] at h
    obtain ⟨q, hp, h⟩ := h
    obtain ⟨q1, hd, h⟩ := Traced.passes_bind.1 h
    obtain ⟨q2, hd', h⟩ := Traced.passes_bind.1 h
    obtain ⟨q3, hm, hs⟩ := Traced.passes_bind.1 h
    have hm' : q3.scopes = q2.scopes := inScopeT_scopes hm fun q q' hq hb => by
      obtain ⟨q1, hr, hb⟩ := Traced.passes_bind.1 hb
      rw [methodsT_scopes methods hb, (reservedNames_rescopes hq (Traced.passes_lift.1 hr)).1,
        List.tail_cons]
    rw [staticsT_scopes statics hs, hm', (define_rescopes (Traced.passes_lift.1 hd')).1,
      (declare_rescopes (Traced.passes_lift.1 hd)).1, superclassT_scopes hp]
    rfl

theorem stmtsT_scopes {r r' : Resolver} {region : Region} : ∀ ss, (stmtsT region ss).Passes G r r' →
    r'.scopes = scopesAfterAll ss r.scopes
  | [], h => by
    rw [stmtsT, Traced.passes_pure] at h
    rw [h]
    rfl
  | s :: ss, h => by
    rw [stmtsT, Traced.passes_bind] at h
    obtain ⟨q, hs, hss⟩ := h
    rw [stmtsT_scopes ss hss, stmtT_scopes s hs]
    rfl

theorem functionT_scopes {r r' : Resolver} {region : Region} : ∀ d, (functionT region d).Passes G r r' →
    r'.scopes = r.scopes
  | ⟨name, ps, body⟩, h => by
    rw [functionT] at h
    refine inScopeT_scopes h fun q q' hq hb => ?_
    obtain ⟨q1, hp, hb⟩ := Traced.passes_bind.1 hb
    rw [stmtsT_scopes body hb, scopesAfterAll_tail, (params_rescopes (Traced.passes_lift.1 hp)).1,
      scopesAfterParams_tail, hq, List.tail_cons]

theorem methodsT_scopes {r r' : Resolver} {inSubclass : Bool} : ∀ ds,
    (methodsT inSubclass ds).Passes G r r' → r'.scopes = r.scopes
  | [], h => by
    rw [methodsT, Traced.passes_pure] at h
    rw [h]
  | d :: ds, h => by
    rw [methodsT, Traced.passes_bind] at h
    obtain ⟨q, hd, hds⟩ := h
    rw [methodsT_scopes ds hds, functionT_scopes d hd]

theorem staticsT_scopes {r r' : Resolver} : ∀ ds, (staticsT ds).Passes G r r' → r'.scopes = r.scopes
  | [], h => by
    rw [staticsT, Traced.passes_pure] at h
    rw [h]
  | d :: ds, h => by
    rw [staticsT, Traced.passes_bind] at h
    obtain ⟨q, hd, hds⟩ := h
    rw [staticsT_scopes ds hds, functionT_scopes d hd]

end

end Trees

end Resolving

end ScriptLang

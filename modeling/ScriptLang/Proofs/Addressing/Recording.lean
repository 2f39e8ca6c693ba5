import ScriptLang.Proofs.Addressing.ScopeEffects
import ScriptLang.Proofs.Tree.Relabelling

/-!
# What resolving records

Where no two uses of names share a number, resolving enters at every use exactly the distance of its name
among the scopes of its moment, and nothing entered later changes that.

* `Reads`, `Looks` — the expressions that read a variable or assign to one, and the name that they look up;
* `Records`, `Places` — what an expression, a statement records, part by part;
* `stmtsT_places` — the theorem for statements.
-/

namespace ScriptLang

/-- The expressions that read a variable, with the use and the name that resolving looks up. -/
inductive Reads {ι : Type} : Expr ι → Occurrence ι → String → Prop
  | name {kind use} : Reads (.name kind use) use (Resolving.lookedUp kind use.text)
  | superGet {keyword property} : Reads (.superGet keyword property) keyword "super"

/-- The expressions that look a name up: those that read a variable, and assignments. -/
inductive Looks {ι : Type} : Expr ι → Occurrence ι → String → Prop
  | reads {e use text} : Reads e use text → Looks e use text
  | assign {target value} : Looks (.assign target value) target target.text

namespace Resolving

/-- If the expression looks a name up, the table has the distance of the name at the moment. -/
def Exact (L : Locals) (e : Expr OccurrenceId) (q : Resolver) : Prop :=
  ∀ use text, Looks e use text → L[use.id]? = distance? q.scopes text

/-- Two tables have the same entries under some numbers. -/
def AgreeOn (is : List OccurrenceId) (L L' : Locals) : Prop := ∀ k ∈ is, L[k]? = L'[k]?

/-- No entry of a table stands under these numbers. -/
def FreshFor (is : List OccurrenceId) (L : Locals) : Prop := ∀ k ∈ is, L[k]? = none

/-- The computation enters nothing under other numbers. -/
def Touches (is : List OccurrenceId) (r r' : Resolver) : Prop :=
  ∀ k, k ∉ is → r'.locals[k]? = r.locals[k]?

variable {t u : Marked Unit} {is js : List OccurrenceId} {r r' r'' q : Resolver} {e : Expr OccurrenceId}
  {L : Locals} {region : Region}

lemma Touches.trans (h : Touches is r r') (h' : Touches js r' r'') : Touches (is ++ js) r r'' := by
  intro k hk
  obtain ⟨hi, hj⟩ := not_or.1 (mt List.mem_append.2 hk)
  exact (h' k hj).trans (h k hi)

/-- Of two computations one behind the other with different numbers, the second begins with a table that is
fresh for it, and the first can be judged by the last table. -/
lemma Touches.split (h : Touches is r r') (h' : Touches js r' r'') (hn : (is ++ js).Nodup)
    (hf : FreshFor (is ++ js) r.locals) (hL : AgreeOn (is ++ js) L r''.locals) :
    FreshFor is r.locals ∧ FreshFor js r'.locals ∧ AgreeOn is L r'.locals ∧ AgreeOn js L r''.locals := by
  obtain ⟨-, -, hd⟩ := List.nodup_append.1 hn
  refine ⟨fun k hk => hf k (List.mem_append_left _ hk), fun k hk => ?_, fun k hk => ?_,
    fun k hk => hL k (List.mem_append_right _ hk)⟩
  · rw [h k fun hk' => hd k hk' k hk rfl]
    exact hf k (List.mem_append_right _ hk)
  · rw [hL k (List.mem_append_left _ hk)]
    exact h' k fun hk' => hd k hk k hk' rfl

/-! ### Expressions -/

/-- The moment has the given scopes, and the table is exact for it; all uses of names are among those with
the given numbers. -/
structure Within (is : List OccurrenceId) (scopes : List Scope) (L : Locals) (e : Expr OccurrenceId)
    (q : Resolver) : Prop where
  scopes : q.scopes = scopes
  ids : ∀ o ∈ e.occurrences, o.id ∈ is
  exact : Exact L e q

lemma Within.mono {scopes : List Scope} (h : Within is scopes L e q) (hs : is ⊆ js) :
    Within js scopes L e q := ⟨h.scopes, fun o ho => hs (h.ids o ho), h.exact⟩

/-- The computation leaves the scopes as they are and records its moments exactly. -/
def Records (t : Marked Unit) (is : List OccurrenceId) : Prop :=
  ∀ r r', t.Passes (fun _ _ => True) r r' → r'.scopes = r.scopes ∧ Touches is r r' ∧
    (is.Nodup → FreshFor is r.locals → ∀ L, AgreeOn is L r'.locals → t.Passes (Within is r.scopes L) r r')

lemma Records.pure : Records (pure ()) [] := by
  intro r r' h
  obtain rfl := Traced.passes_pure.1 h
  exact ⟨rfl, fun _ _ => rfl, fun _ _ _ _ => Traced.passes_pure.2 rfl⟩

lemma Records.bind (ht : Records t is) (hu : Records u js) : Records (do t; u) (is ++ js) := by
  intro r r'' h
  obtain ⟨r', h1, h2⟩ := Traced.passes_bind.1 h
  obtain ⟨hs1, ht1, hp1⟩ := ht r r' h1
  obtain ⟨hs2, ht2, hp2⟩ := hu r' r'' h2
  refine ⟨hs2.trans hs1, ht1.trans ht2, fun hn hf L hL => ?_⟩
  obtain ⟨hn1, hn2, -⟩ := List.nodup_append.1 hn
  obtain ⟨hf1, hf2, hL1, hL2⟩ := ht1.split ht2 hn hf hL
  refine Traced.passes_bind.2 ⟨r', (hp1 hn1 hf1 L hL1).mono fun _ _ h => ?_,
    (hp2 hn2 hf2 L hL2).mono fun _ _ h => ?_⟩
  · exact h.mono (List.subset_append_left _ _)
  · rw [hs1] at h
    exact h.mono (List.subset_append_right _ _)

/-- An expression that looks up no name itself records what its parts record. -/
lemma Records.visit (ht : Records t is) (he : ids e.occurrences = is)
    (hr : ∀ use text, ¬ Looks e use text) : Records (.visit e t) is := by
  intro r r' h
  obtain ⟨-, h⟩ := Traced.passes_visit.1 h
  obtain ⟨hs, ht, hp⟩ := ht r r' h
  refine ⟨hs, ht, fun hn hf L hL => Traced.passes_visit.2 ⟨⟨rfl, fun o ho => ?_, ?_⟩, hp hn hf L hL⟩⟩
  · rw [← he]
    exact List.mem_map_of_mem ho
  · exact fun use text h => absurd h (hr use text)

/-- An expression that reads a variable records the distance of the name. -/
lemma Records.reading {use : Occurrence OccurrenceId} {text : String} {x : Resolving Unit}
    (hx : ∀ r r', x r = .ok () r' → Locates use.id text r r') (he : e.occurrences = [use])
    (hr : ∀ use' text', Looks e use' text' → use' = use ∧ text' = text) :
    Records (.visit e (.lift x)) [use.id] := by
  intro r r' h
  obtain ⟨-, h⟩ := Traced.passes_visit.1 h
  obtain ⟨hs, ho, hl⟩ := hx r r' (Traced.passes_lift.1 h)
  refine ⟨hs, fun k hk => ho k (by simpa using hk), fun _ hf L hL =>
    Traced.passes_visit.2 ⟨⟨rfl, ?_, ?_⟩, Traced.passes_lift.2 (Traced.passes_lift.1 h)⟩⟩
  · simp [he]
  · intro use' text' h'
    obtain ⟨rfl, rfl⟩ := hr use' text' h'
    rw [hL _ (List.mem_singleton.2 rfl), hl (hf _ (List.mem_singleton.2 rfl))]

lemma Records.locate (id : OccurrenceId) (text : String) : Records (.lift (locate id text)) [id] := by
  intro r r' h
  obtain ⟨hs, ho, -⟩ := locate_locates (Traced.passes_lift.1 h)
  exact ⟨hs, fun k hk => ho k (by simpa using hk),
    fun _ _ _ _ => Traced.passes_lift.2 (Traced.passes_lift.1 h)⟩

lemma read_records {kind : NameKind} {use : Occurrence OccurrenceId} (r r' : Resolver)
    (h : read region kind use r = .ok () r') : Locates use.id (lookedUp kind use.text) r r' := (read_ok h).1

/-- Behind its value an assignment records the distance of the name. -/
lemma Records.assigning {target : Occurrence OccurrenceId} {value : Expr OccurrenceId}
    (ht : Records t (ids value.occurrences)) :
    Records (.visit (.assign target value) (do t; .lift (Resolving.locate target.id target.text)))
      (ids value.occurrences ++ [target.id]) := by
  intro r r' h
  obtain ⟨-, h⟩ := Traced.passes_visit.1 h
  obtain ⟨hs, htouch, hp⟩ := (ht.bind (.locate target.id target.text)) r r' h
  obtain ⟨q, hvalue, hlocate⟩ := Traced.passes_bind.1 h
  obtain ⟨hq, hbefore, -⟩ := ht r q hvalue
  obtain ⟨-, -, hself⟩ := locate_locates (Traced.passes_lift.1 hlocate)
  refine ⟨hs, htouch, fun hn hf L hL => Traced.passes_visit.2 ⟨⟨rfl, fun o ho => ?_, ?_⟩, hp hn hf L hL⟩⟩
  · simpa [ids, Expr.occurrences] using List.mem_map_of_mem (f := Occurrence.id) ho
  · intro use text hlooks
    cases hlooks with
    | reads hr => cases hr
    | assign =>
      have htarget : target.id ∈ ids value.occurrences ++ [target.id] :=
        List.mem_append_right _ (List.mem_singleton_self _)
      -- The uses in the value have other numbers, so the entry is still free.
      have hother : target.id ∉ ids value.occurrences := fun hmem =>
        (List.nodup_append.1 hn).2.2 _ hmem _ (List.mem_singleton_self _) rfl
      have hfree : q.locals[target.id]? = none := (hbefore _ hother).trans (hf _ htarget)
      rw [hL _ htarget, hself hfree, hq]

lemma name_records (kind : NameKind) (use : Occurrence OccurrenceId) :
    Records (.visit (.name kind use) (.lift (read region kind use))) [use.id] :=
  .reading read_records rfl fun _ _ h => by
    rcases h with ⟨⟨⟩⟩
    exact ⟨rfl, rfl⟩

lemma not_looks {e : Expr OccurrenceId} (hr : ∀ use text, ¬ Reads e use text)
    (ha : ∀ target value, e ≠ .assign target value) (use : Occurrence OccurrenceId) (text : String) :
    ¬ Looks e use text := by
  rintro (h | _)
  · exact hr _ _ h
  · exact ha _ _ rfl

mutual

theorem exprT_records : ∀ e, Records (exprT region e) (ids e.occurrences)
  | .literal _ => by
    rw [exprT]
    exact Records.pure.visit rfl (not_looks nofun nofun)
  | .name kind use => by
    rw [exprT]
    exact name_records kind use
  | .superGet keyword property => by
    rw [exprT]
    exact @Records.reading _ _ "super" _ read_records rfl fun _ _ h => by
      rcases h with ⟨⟨⟩⟩
      exact ⟨rfl, rfl⟩
  | .assign target value => by
    rw [exprT, Expr.occurrences, ids_append]
    exact (exprT_records value).assigning
  | .unary _ _ e | .group e | .get e _ => by
    rw [exprT, Expr.occurrences]
    exact (exprT_records e).visit rfl (not_looks nofun nofun)
  | .binary _ _ e e' | .logical _ _ e e' | .set e _ e' => by
    rw [exprT, Expr.occurrences, ids_append]
    exact ((exprT_records e).bind (exprT_records e')).visit (by simp [Expr.occurrences]) (not_looks nofun nofun)
  | .call _ e es => by
    rw [exprT, Expr.occurrences, ids_append]
    exact ((exprT_records e).bind (exprsT_records es)).visit (by simp [Expr.occurrences]) (not_looks nofun nofun)

theorem exprsT_records : ∀ es, Records (exprsT region es) (ids (Expr.occurrencesList es))
  | [] => by
    rw [exprsT]
    exact .pure
  | e :: es => by
    rw [exprsT, Expr.occurrencesList, ids_append]
    exact (exprT_records e).bind (exprsT_records es)

end

/-! ### Statements -/

/-- The moment has the scopes that its uses of names are known to have, and the table is exact for it. -/
structure Placed (is : List OccurrenceId) (place : OccurrenceId → List Scope) (L : Locals)
    (e : Expr OccurrenceId) (q : Resolver) : Prop where
  place : ∀ o ∈ e.occurrences, o.id ∈ is ∧ place o.id = q.scopes
  exact : Exact L e q

lemma Placed.congr {place place' : OccurrenceId → List Scope} (h : Placed is place L e q)
    (hs : is ⊆ js) (hp : ∀ k ∈ is, place' k = place k) : Placed js place' L e q := by
  refine ⟨fun o ho => ?_, h.exact⟩
  obtain ⟨hi, hpl⟩ := h.place o ho
  exact ⟨hs hi, (hp _ hi).trans hpl⟩

/-- The computation records its moments exactly, and every use of a name has scopes of its own. -/
def Places (t : Marked Unit) (is : List OccurrenceId) : Prop :=
  ∀ r r', t.Passes (fun _ _ => True) r r' → Touches is r r' ∧
    (is.Nodup → FreshFor is r.locals →
      ∃ place, ∀ L, AgreeOn is L r'.locals → t.Passes (Placed is place L) r r')

lemma Records.places (ht : Records t is) : Places t is := by
  intro r r' h
  obtain ⟨-, htouch, hp⟩ := ht r r' h
  refine ⟨htouch, fun hn hf => ⟨fun _ => r.scopes, fun L hL => (hp hn hf L hL).mono fun _ _ h => ?_⟩⟩
  exact ⟨fun o ho => ⟨h.ids o ho, h.scopes.symm⟩, h.exact⟩

lemma Places.bind (ht : Places t is) (hu : Places u js) : Places (do t; u) (is ++ js) := by
  intro r r'' h
  obtain ⟨r', h1, h2⟩ := Traced.passes_bind.1 h
  obtain ⟨ht1, hp1⟩ := ht r r' h1
  obtain ⟨ht2, hp2⟩ := hu r' r'' h2
  refine ⟨ht1.trans ht2, fun hn hf => ?_⟩
  obtain ⟨hn1, hn2, hd⟩ := List.nodup_append.1 hn
  obtain ⟨hf1, hf2, -, -⟩ := ht1.split ht2 hn hf (L := r''.locals) fun _ _ => rfl
  obtain ⟨place, hp1⟩ := hp1 hn1 hf1
  obtain ⟨place', hp2⟩ := hp2 hn2 hf2
  refine ⟨fun k => if k ∈ is then place k else place' k, fun L hL => ?_⟩
  obtain ⟨-, -, hL1, hL2⟩ := ht1.split ht2 hn hf hL
  refine Traced.passes_bind.2 ⟨r', (hp1 L hL1).mono fun _ _ h => ?_, (hp2 L hL2).mono fun _ _ h => ?_⟩
  · exact h.congr (List.subset_append_left _ _) fun k hk => if_pos hk
  · exact h.congr (List.subset_append_right _ _) fun k hk => if_neg fun hk' => hd k hk' k hk rfl

lemma Places.pure : Places (pure ()) [] := Records.pure.places

/-- A step that only changes scopes records nothing. -/
lemma Places.rescopes {x : Resolving Unit} (hx : ∀ r r', x r = .ok () r' → r'.locals = r.locals) :
    Places (.lift x) [] := by
  intro r r' h
  have hl := hx r r' (Traced.passes_lift.1 h)
  exact ⟨fun _ _ => by rw [hl], fun _ _ =>
    ⟨fun _ => [], fun _ _ => Traced.passes_lift.2 (Traced.passes_lift.1 h)⟩⟩

lemma Places.inScope (ht : Places t is) : Places (inScopeT t) is := by
  have h := (Places.rescopes (x := modify fun r => { r with scopes := [] :: r.scopes })
    fun r r' h => by cases h; rfl).bind (ht.bind (Places.rescopes
      (x := modify fun r => { r with scopes := r.scopes.tail }) fun r r' h => by cases h; rfl))
  rwa [List.append_nil, List.nil_append] at h

lemma declare_places (name : Ident) : Places (.lift (declare name)) [] :=
  .rescopes fun _ _ h => (declare_rescopes h).2

lemma define_places (text : String) : Places (.lift (define text)) [] :=
  .rescopes fun _ _ h => (define_rescopes h).2

lemma exprOptionT_places (e : Option (Expr OccurrenceId)) :
    Places (exprOptionT region e) (ids (Expr.occurrencesOption e)) := by
  cases e with
  | none => exact .pure
  | some e => exact (exprT_records e).places

lemma superclassT_places (name : Ident) (parent : Option (Occurrence OccurrenceId)) :
    Places (superclassT region name parent) (ids parent.toList) := by
  cases parent with
  | none => exact .pure
  | some use =>
    have hwarn : Places (.lift (warnIf (use.text = name.text) (.inheritsFromItself use.text use.line))) [] :=
      .rescopes fun _ _ h => (warnIf_rescopes h).2
    exact hwarn.bind (name_records .identifier use).places

mutual

theorem stmtT_places : ∀ (region : Region) s, Places (stmtT region s) (ids s.occurrences)
  | region, .expr e | region, .print e => by
    rw [stmtT, Stmt.occurrences]
    exact (exprT_records e).places
  | region, .letVar name value => by
    have hvalue : Places (exprOptionT region value) _ := exprOptionT_places value
    have h := (declare_places name).bind (hvalue.bind (define_places name.text))
    rw [stmtT, Stmt.occurrences]
    rwa [List.append_nil, List.nil_append] at h
  | region, .constVar name value => by
    have hvalue : Places (exprT region value) _ := (exprT_records value).places
    have h := (declare_places name).bind (hvalue.bind (define_places name.text))
    rw [stmtT, Stmt.occurrences]
    rwa [List.append_nil, List.nil_append] at h
  | region, .block body => by
    rw [stmtT, Stmt.occurrences]
    exact (stmtsT_places region body).inScope
  | region, .ifThen c yes => by
    rw [stmtT, Stmt.occurrences, ids_append]
    exact (exprT_records c).places.bind (stmtT_places region yes)
  | region, .ifElse c yes no => by
    rw [stmtT, Stmt.occurrences, ids_append, ids_append, List.append_assoc]
    exact (exprT_records c).places.bind ((stmtT_places region yes).bind (stmtT_places region no))
  | region, .while c body => by
    rw [stmtT, Stmt.occurrences, ids_append]
    exact (exprT_records c).places.bind (stmtT_places region body)
  | region, .function decl => by
    rw [stmtT, Stmt.occurrences]
    exact (declare_places decl.name).bind ((define_places decl.name.text).bind
      (functionT_places region.nested decl))
  | region, .return line value => by
    rw [stmtT, Stmt.occurrences]
    split
    · intro r r' h
      cases h.1
    · exact exprOptionT_places value
  | region, .classDecl name parent methods statics => by
    have hreserved : Places (.lift (reservedNames parent.isSome)) []  :=
      .rescopes fun _ _ h => reservedNames_locals h
    have hparent : Places (superclassT region name parent) _ := superclassT_places name parent
    have h := hparent.bind ((declare_places name).bind
      ((define_places name.text).bind
        ((hreserved.bind (methodsT_places parent.isSome methods)).inScope.bind (staticsT_places statics))))
    rw [stmtT, Stmt.occurrences, ids_append, ids_append, List.append_assoc]
    simpa only [List.nil_append] using h

theorem stmtsT_places : ∀ (region : Region) ss, Places (stmtsT region ss) (ids (Stmt.occurrencesList ss))
  | region, [] => by
    rw [stmtsT, Stmt.occurrencesList]
    exact .pure
  | region, s :: ss => by
    rw [stmtsT, Stmt.occurrencesList, ids_append]
    exact (stmtT_places region s).bind (stmtsT_places region ss)

theorem functionT_places : ∀ (region : Region) d, Places (functionT region d)
    (ids (FunctionDecl.occurrences d))
  | region, ⟨name, ps, body⟩ => by
    have hparams : Places (.lift (params ps)) [] := .rescopes fun _ _ h => (params_rescopes h).2
    rw [functionT, FunctionDecl.occurrences]
    exact (hparams.bind (stmtsT_places region body)).inScope

theorem methodsT_places : ∀ (inSubclass : Bool) ds, Places (methodsT inSubclass ds)
    (ids (FunctionDecl.occurrencesList ds))
  | inSubclass, [] => by
    rw [methodsT, FunctionDecl.occurrencesList]
    exact .pure
  | inSubclass, d :: ds => by
    rw [methodsT, FunctionDecl.occurrencesList, ids_append]
    exact (functionT_places _ d).bind (methodsT_places inSubclass ds)

theorem staticsT_places : ∀ ds, Places (staticsT ds) (ids (FunctionDecl.occurrencesList ds))
  | [] => by
    rw [staticsT, FunctionDecl.occurrencesList]
    exact .pure
  | d :: ds => by
    rw [staticsT, FunctionDecl.occurrencesList, ids_append]
    exact (functionT_places _ d).bind (staticsT_places ds)

end

end Resolving

end ScriptLang

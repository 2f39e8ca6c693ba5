import ScriptLang.Proofs.Addressing.Readability
import ScriptLang.Proofs.Addressing.TopLevel
import ScriptLang.Proofs.Loops.Layers
import ScriptLang.Proofs.Loops.SourceScopes

/-!
# Scopes in the tree and in the source

Resolving a tree opens a scope for the block around a body and an increment, in which nothing is ever declared.
Resolving the program as it is written goes the same way without these scopes: it finds the same errors and gives the
same warnings, and every use of a name gets a distance that means the same.

* `Thinned` — the scopes of the tree, and those among them that the source has;
* `Thinned.distance` — a name is found in the same scope;
* `Concur` — two computations that go the same way, from scopes to scopes, and whose entries fit;
* `stmt_concur` — resolving a statement;
* `topLevel_concur`, `resolve_concur` — whole programs, and `Resolution.Concurs`, what is known of the answers.
-/

namespace ScriptLang

open Resolving

/-! ### Scopes -/

/-- The scopes of the tree, with their layers, and the scopes of the source: those of blocks around a body and an
increment are empty, and the source does not have them. -/
inductive Thinned : Layers → List Scope → List Scope → Prop
  | nil : Thinned [] [] []
  | own {l scope S S'} : Thinned l S S' → Thinned (false :: l) (scope :: S) (scope :: S')
  | round {l S S'} : Thinned l S S' → Thinned (true :: l) ([] :: S) S'

variable {l l' : Layers} {S S' : List Scope} {name : String}

lemma distance?_cons_has {scope : Scope} (h : scope.has name = true) : distance? (scope :: S) name = some 0 := by
  rw [distance?, List.findIdx?_cons, if_pos h]

lemma distance?_cons {scope : Scope} (h : scope.has name = false) :
    distance? (scope :: S) name = (distance? S name).map (· + 1) := by
  rw [distance?, List.findIdx?_cons, if_neg (h ▸ Bool.false_ne_true)]
  rfl

/-- **A name is found in the same scope**: the scopes on the way to it are passed on both sides, but for those that
the source does not have. -/
lemma Thinned.distance (h : Thinned l S S') (name : String) :
    (distance? S name = none → distance? S' name = none) ∧
      ∀ d, distance? S name = some d → l[d]? = some false ∧ distance? S' name = some (l.passed d) := by
  induction h with
  | nil => exact ⟨fun h => h, nofun⟩
  | @own l scope S S' _ ih =>
    obtain ⟨hnone, hsome⟩ := ih
    cases hhas : scope.has name with
    | true =>
      rw [distance?_cons_has hhas, distance?_cons_has hhas]
      refine ⟨nofun, fun d hd => ?_⟩
      cases hd
      exact ⟨rfl, rfl⟩
    | false =>
      rw [distance?_cons hhas, distance?_cons hhas]
      refine ⟨fun h => ?_, fun d hd => ?_⟩
      · rw [hnone (Option.map_eq_none_iff.1 h)]
        rfl
      · obtain ⟨e, he, rfl⟩ := Option.map_eq_some_iff.1 hd
        obtain ⟨hl, hS⟩ := hsome e he
        rw [List.getElem?_cons_succ, Layers.passed_own, hS]
        exact ⟨hl, rfl⟩
  | @round l S S' _ ih =>
    obtain ⟨hnone, hsome⟩ := ih
    have hhas : Table.has ([] : Scope) name = false := rfl
    rw [distance?_cons hhas]
    refine ⟨fun h => hnone (Option.map_eq_none_iff.1 h), fun d hd => ?_⟩
    obtain ⟨e, he, rfl⟩ := Option.map_eq_some_iff.1 hd
    obtain ⟨hl, hS⟩ := hsome e he
    rw [List.getElem?_cons_succ, Layers.passed_round]
    exact ⟨hl, hS⟩

/-- A name is entered into the innermost scope, which both sides have. -/
lemma Thinned.enter (h : Thinned l S S') (hl : l.Own) (name : String) (b : Binding) :
    Thinned l (ScriptLang.enter name b S) (ScriptLang.enter name b S') := by
  cases h with
  | nil => exact .nil
  | own h => exact .own h
  | round => exact absurd hl Layers.not_own_true

lemma Thinned.subset (h : Thinned l S S') : S' ⊆ S := by
  induction h with
  | nil => exact fun _ h => h
  | own _ ih => exact List.cons_subset_cons _ ih
  | round _ ih => exact fun _ hs => List.mem_cons_of_mem _ (ih hs)

/-- Where the innermost scopes are different, reading is allowed if all names are defined. -/
lemma Thinned.readable (h : Thinned l S S') (hS : ¬ l.Own → Settled S) :
    ((∀ scope ∈ S.head?, scope.get? name ≠ some .declared) ↔ ∀ scope ∈ S'.head?, scope.get? name ≠ some .declared) := by
  cases h with
  | nil | own => exact Iff.rfl
  | round h =>
    have hsettled := hS Layers.not_own_true
    refine ⟨fun _ scope hscope => ?_, fun _ scope hscope => ?_⟩
    · exact hsettled scope (List.mem_cons_of_mem _ (h.subset (List.mem_of_mem_head? hscope))) name
    · exact hsettled scope (List.mem_of_mem_head? hscope) name

/-- At the beginning of statements all names are defined. -/
structure Calm (l : Layers) (S S' : List Scope) : Prop where
  thinned : Thinned l S S'
  settled : Settled S

/-- While a declaration is resolved its name is only declared. -/
def Pending (l : Layers) (name : String) (S S' : List Scope) : Prop :=
  ∃ S0 S0', Calm l S0 S0' ∧ l.Own ∧ S = enter name .declared S0 ∧ S' = enter name .declared S0'

/-- Where expressions can be resolved. -/
def ForExpressions (l : Layers) (P : List Scope → List Scope → Prop) : Prop :=
  ∀ S S', P S S' → Thinned l S S' ∧ (¬ l.Own → Settled S)

lemma calm_forExpressions : ForExpressions l (Calm l) := fun _ _ h => ⟨h.thinned, fun _ => h.settled⟩

lemma pending_forExpressions : ForExpressions l (Pending l name) := by
  rintro _ _ ⟨S0, S0', h, hl, rfl, rfl⟩
  exact ⟨h.thinned.enter hl name .declared, fun h => absurd hl h⟩

/-! ### Computations that go the same way -/

/-- For the uses with the given numbers, the distances are the entries of two tables, or nothing. -/
def Distances.Covers (T : Distances) (is : List OccurrenceId) (L L' : Locals) : Prop :=
  ∀ k ∈ is, k < T.next ∧
    (T.tree[k]? = L[k]? ∧ T.source[k]? = L'[k]? ∨ T.tree[k]? = none ∧ T.source[k]? = none)

/-- What is known of distances that cover the entries of uses which had none before. -/
def Enters (is : List OccurrenceId) (C : Distances → Prop) (r r' q q' : Resolver) : Prop :=
  is.Nodup → FreshFor is r.locals → FreshFor is r'.locals → ∀ T : Distances, T.Covers is q.locals q'.locals → C T

/-- The outcomes of two computations: both fail in the same way, or both succeed, with scopes and entries that go
together. -/
inductive EndsConcurring (Q : List Scope → List Scope → Prop) (is : List OccurrenceId) (C : Distances → Prop)
    (r r' : Resolver) : EStateM.Result ScopeError Resolver Unit → EStateM.Result ScopeError Resolver Unit → Prop
  | ok {q q'} : Q q.scopes q'.scopes → q'.warnings = q.warnings → Touches is r q → Touches is r' q' →
      Enters is C r r' q q' → EndsConcurring Q is C r r' (.ok () q) (.ok () q')
  | error {e q q'} : q'.warnings = q.warnings → EndsConcurring Q is C r r' (.error e q) (.error e q')

lemma EndsConcurring.inv {Q : List Scope → List Scope → Prop} {is : List OccurrenceId} {C : Distances → Prop}
    {r r' : Resolver} {o o' : EStateM.Result ScopeError Resolver Unit} (h : EndsConcurring Q is C r r' o o') :
    (∃ q q', o = .ok () q ∧ o' = .ok () q' ∧ Q q.scopes q'.scopes ∧ q'.warnings = q.warnings ∧ Touches is r q ∧
      Touches is r' q' ∧ Enters is C r r' q q') ∨
      ∃ e q q', o = .error e q ∧ o' = .error e q' ∧ q'.warnings = q.warnings := by
  cases h with
  | ok hQ hw ht ht' hE => exact .inl ⟨_, _, rfl, rfl, hQ, hw, ht, ht', hE⟩
  | error hw => exact .inr ⟨_, _, _, rfl, rfl, hw⟩

/-- **From scopes with `P`, the two computations go the same way**: to scopes with `Q`, with entries for the uses
with the given numbers, from which `C` follows. -/
def Concur (P Q : List Scope → List Scope → Prop) (is : List OccurrenceId) (C : Distances → Prop)
    (x y : Resolving Unit) : Prop :=
  ∀ r r', P r.scopes r'.scopes → r'.warnings = r.warnings → EndsConcurring Q is C r r' (x r) (y r')

variable {P Q R : List Scope → List Scope → Prop} {is js : List OccurrenceId} {C D : Distances → Prop}
  {x x' y y' : Resolving Unit} {r r' q q' : Resolver}

namespace Concur

lemma imp (h : Concur P Q is C x y) (hC : ∀ T, C T → D T) : Concur P Q is D x y := by
  intro r r' hP hw
  obtain ⟨q, q', hx, hy, hQ, hwq, ht, ht', hE⟩ | ⟨e, q, q', hx, hy, hwq⟩ := (h r r' hP hw).inv
  · rw [hx, hy]
    exact .ok hQ hwq ht ht' fun hn hf hf' T hT => hC T (hE hn hf hf' T hT)
  · rw [hx, hy]
    exact .error hwq

lemma pure : Concur P P [] (fun _ => True) (pure ()) (pure ()) :=
  fun _ _ hP hw => .ok hP hw (fun _ _ => rfl) (fun _ _ => rfl) fun _ _ _ _ _ => trivial

lemma throw {e : ScopeError} : Concur P Q is C (throw e) (throw e) := fun _ _ _ hw => .error hw

lemma bind (h : Concur P Q is C x x') (h' : Concur Q R js D y y') :
    Concur P R (is ++ js) (fun T => C T ∧ D T) (do x; y) (do x'; y') := by
  intro r r' hP hw
  obtain ⟨q, q', hx, hx', hQ, hwq, ht, ht', hE⟩ | ⟨e, q, q', hx, hx', hwq⟩ := (h r r' hP hw).inv
  · rw [Traced.bind_ok hx, Traced.bind_ok hx']
    obtain ⟨q2, q2', hy, hy', hR, hw2, ht2, ht2', hE2⟩ | ⟨e, q2, q2', hy, hy', hw2⟩ := (h' q q' hQ hwq).inv
    · rw [hy, hy']
      refine .ok hR hw2 (ht.trans ht2) (ht'.trans ht2') fun hn hf hf' T hT => ?_
      obtain ⟨hn1, hn2, hd⟩ := List.nodup_append.1 hn
      have hfirst : T.Covers is q.locals q'.locals := fun k hk => by
        have hother : k ∉ js := fun hk' => hd k hk k hk' rfl
        rw [← ht2 k hother, ← ht2' k hother]
        exact hT k (List.mem_append_left _ hk)
      have hfresh : FreshFor js q.locals := fun k hk => by
        rw [ht k fun hk' => hd k hk' k hk rfl]
        exact hf k (List.mem_append_right _ hk)
      have hfresh' : FreshFor js q'.locals := fun k hk => by
        rw [ht' k fun hk' => hd k hk' k hk rfl]
        exact hf' k (List.mem_append_right _ hk)
      refine ⟨hE hn1 ?_ ?_ T hfirst, hE2 hn2 hfresh hfresh' T fun k hk => hT k (List.mem_append_right _ hk)⟩
      · exact fun k hk => hf k (List.mem_append_left _ hk)
      · exact fun k hk => hf' k (List.mem_append_left _ hk)
    · rw [hy, hy']
      exact .error hw2
  · rw [Traced.bind_error hx, Traced.bind_error hx']
    exact .error hwq

/-- A step that enters nothing. -/
lemma step (h : ∀ r r', P r.scopes r'.scopes → r'.warnings = r.warnings → ∃ q q', x r = .ok () q ∧ y r' = .ok () q' ∧
    Q q.scopes q'.scopes ∧ q'.warnings = q.warnings ∧ q.locals = r.locals ∧ q'.locals = r'.locals) :
    Concur P Q [] (fun _ => True) x y := by
  intro r r' hP hw
  obtain ⟨q, q', hx, hy, hQ, hwq, hl, hl'⟩ := h r r' hP hw
  rw [hx, hy]
  exact .ok hQ hwq (fun k _ => by rw [hl]) (fun k _ => by rw [hl']) fun _ _ _ _ _ => trivial

/-- Steps that enter nothing around one that does. -/
lemma around {x1 x2 x3 y1 y2 y3 : Resolving Unit} (h1 : Concur P Q [] (fun _ => True) x1 y1)
    (h2 : Concur Q Q is C x2 y2) (h3 : Concur Q R [] (fun _ => True) x3 y3) :
    Concur P R is C (do x1; x2; x3) (do y1; y2; y3) := by
  have h := (h1.bind (h2.bind h3)).imp (D := C) fun _ hT => hT.2.1
  rwa [List.append_nil, List.nil_append] at h

end Concur

/-! ### Single steps -/

section Steps

variable {text : String} {id : OccurrenceId} {region : Region}

lemma warnIf_concur (c : Bool) (warning : ScopeWarning) :
    Concur P P [] (fun _ => True) (warnIf c warning) (warnIf c warning) := by
  refine .step fun r r' hP hw => ?_
  cases c with
  | false => exact ⟨r, r', rfl, rfl, hP, hw, rfl, rfl⟩
  | true => exact ⟨_, _, rfl, rfl, hP, congrArg (· ++ [warning]) hw, rfl, rfl⟩

lemma bind_run (name : String) (b : Binding) (r : Resolver) :
    bind name b r = .ok () { r with scopes := enter name b r.scopes } := by
  rcases r with ⟨_ | ⟨scope, outer⟩, locals, warnings⟩ <;> rfl

/-- In one place the innermost scopes have the same names. -/
lemma Thinned.isBound (h : Thinned l S S') (hl : l.Own) (L L' : Locals) (ws : List ScopeWarning) (name : String) :
    ∃ again, isBound name ⟨S, L, ws⟩ = .ok again ⟨S, L, ws⟩ ∧ isBound name ⟨S', L', ws⟩ = .ok again ⟨S', L', ws⟩ := by
  cases h with
  | nil => exact ⟨false, rfl, rfl⟩
  | own => exact ⟨_, rfl, rfl⟩
  | round => exact absurd hl Layers.not_own_true

lemma declare_concur (name : Ident) (hl : l.Own) :
    Concur (Calm l) (Pending l name.text) [] (fun _ => True) (declare name) (declare name) := by
  refine .step fun r r' hP hw => ?_
  obtain ⟨S, L, ws⟩ := r
  obtain ⟨S', L', ws'⟩ := r'
  obtain rfl : ws' = ws := hw
  obtain ⟨again, hx, hy⟩ := hP.thinned.isBound hl L L' ws' name.text
  have hpending : Pending l name.text (enter name.text .declared S) (enter name.text .declared S') :=
    ⟨S, S', hP, hl, rfl, rfl⟩
  unfold declare
  rw [Traced.bind_ok hx, Traced.bind_ok hy, Traced.bind_ok (bind_run ..), Traced.bind_ok (bind_run ..)]
  cases again with
  | false => exact ⟨_, _, rfl, rfl, hpending, rfl, rfl, rfl⟩
  | true => exact ⟨_, _, rfl, rfl, hpending, rfl, rfl, rfl⟩

lemma define_concur (name : String) :
    Concur (Pending l name) (Calm l) [] (fun _ => True) (define name) (define name) := by
  refine .step fun r r' hP hw => ⟨_, _, bind_run .., bind_run .., ?_, hw, rfl, rfl⟩
  obtain ⟨S0, S0', h, hl, hS, hS'⟩ := hP
  rw [hS, hS']
  exact ⟨(h.thinned.enter hl name .declared).enter hl name .defined, settled_introduce h.settled name⟩

/-- A reserved name is defined at once. -/
lemma defineReserved_concur (name : String) (hl : l.Own) :
    Concur (Calm l) (Calm l) [] (fun _ => True) (define name) (define name) := by
  refine .step fun r r' hP hw => ⟨_, _, bind_run .., bind_run .., ⟨hP.thinned.enter hl name .defined, ?_⟩, hw, rfl, rfl⟩
  have hsettled := hP.settled
  generalize r.scopes = S at hsettled
  cases S with
  | nil => exact hsettled
  | cons scope outer =>
    obtain ⟨hs, ho⟩ := List.forall_mem_cons.1 hsettled
    refine Settled.cons (fun other => ?_) ho
    rw [Table.get?_put]
    split
    · nofun
    · exact hs other

/-- **A use of a name gets distances that mean the same.** -/
lemma locate_concur (hP : ForExpressions l P) (id : OccurrenceId) (name : String) :
    Concur P P [id] (fun T => T.Agree l id) (locate id name) (locate id name) := by
  intro r r' hS hw
  obtain ⟨hnone, hsome⟩ := (hP _ _ hS).1.distance name
  have hlocate : ∀ r : Resolver, ∃ q, locate id name r = .ok () q ∧ q.warnings = r.warnings := fun r => by
    rcases hd : distance? r.scopes name with _ | d
    · exact ⟨r, locate_none hd, rfl⟩
    · exact ⟨_, locate_some hd, rfl⟩
  obtain ⟨q, hq, hwq⟩ := hlocate r
  obtain ⟨q', hq', hwq'⟩ := hlocate r'
  have hl := locate_locates hq
  have hl' := locate_locates hq'
  rw [hq, hq']
  refine .ok (by rwa [hl.scopes, hl'.scopes]) (by rw [hwq, hwq', hw]) (fun k hk => hl.other k (by simpa using hk))
    (fun k hk => hl'.other k (by simpa using hk)) fun _ hf hf' T hT => ?_
  obtain ⟨hbelow, hentry⟩ := hT id (List.mem_singleton_self id)
  rw [hl.self (hf id (List.mem_singleton_self id)), hl'.self (hf' id (List.mem_singleton_self id))] at hentry
  rcases hentry with ⟨ht, hs⟩ | ⟨ht, hs⟩
  · refine ⟨hbelow, fun hn => ?_, fun d hd => ?_⟩
    · rw [hs, hnone (ht.symm.trans hn)]
    · obtain ⟨hld, hSd⟩ := hsome d (ht.symm.trans hd)
      exact ⟨hld, hs.trans hSd⟩
  · refine ⟨hbelow, fun _ => hs, fun d hd => ?_⟩
    rw [ht] at hd
    cases hd

lemma checkReadable_run (name : Ident) (r : Resolver) :
    checkReadable name r = if ∀ scope ∈ r.scopes.head?, scope.get? name.text ≠ some .declared then .ok () r
      else .error (.ownInitializer name.text name.line) r := by
  rcases r with ⟨_ | ⟨scope, outer⟩, locals, warnings⟩
  · rw [if_pos nofun]
    rfl
  · have hstep : checkReadable name ⟨scope :: outer, locals, warnings⟩ =
        (if scope.get? name.text = some .declared then throw (.ownInitializer name.text name.line)
          else pure () : Resolving Unit) ⟨scope :: outer, locals, warnings⟩ := rfl
    rw [hstep]
    by_cases hd : scope.get? name.text = some .declared
    · rw [if_pos hd, if_neg fun h => h scope rfl hd]
      rfl
    · rw [if_neg hd, if_pos]
      · rfl
      · rintro _ ⟨⟩
        exact hd

lemma checkReadable_concur (hP : ForExpressions l P) (name : Ident) :
    Concur P P [] (fun _ => True) (checkReadable name) (checkReadable name) := by
  intro r r' hS hw
  obtain ⟨ht, hsettled⟩ := hP _ _ hS
  rw [checkReadable_run, checkReadable_run]
  by_cases hread : ∀ scope ∈ r.scopes.head?, scope.get? name.text ≠ some .declared
  · rw [if_pos hread, if_pos ((ht.readable hsettled).1 hread)]
    exact .ok hS hw (fun _ _ => rfl) (fun _ _ => rfl) fun _ _ _ _ _ => trivial
  · rw [if_neg hread, if_neg (mt (ht.readable hsettled).2 hread)]
    exact .error hw

lemma read_concur (hP : ForExpressions l P) (kind : NameKind) (use : Occurrence OccurrenceId) :
    Concur P P [use.id] (fun T => T.Agree l use.id) (read region kind use) (read region kind use) := by
  cases kind with
  | identifier =>
    exact ((checkReadable_concur hP use.toIdent).bind (locate_concur hP use.id use.text)).imp fun _ h => h.2
  | this | super => exact ((warnIf_concur _ _).bind (locate_concur hP use.id _)).imp fun _ h => h.2

end Steps

/-! ### Expressions -/

section Expressions

variable {region : Region}

mutual

theorem expr_concur (hP : ForExpressions l P) : ∀ e,
    Concur P P (ids e.occurrences) (fun T => Expr.FitsIn T l e) (expr region e) (expr region e)
  | .literal _ => by
    rw [expr]
    exact Concur.pure.imp fun _ _ => List.forall_mem_nil _
  | .name kind use => by
    rw [expr]
    exact (read_concur hP kind use).imp fun _ => Distances.agreeAll_singleton.2
  | .superGet keyword property => by
    rw [expr]
    exact (read_concur hP .super keyword).imp fun _ => Distances.agreeAll_singleton.2
  | .assign target value => by
    rw [expr, Expr.occurrences, ids_append]
    exact ((expr_concur hP value).bind (locate_concur hP target.id target.text)).imp fun _ h =>
      Distances.agreeAll_append.2 ⟨h.1, Distances.agreeAll_singleton.2 h.2⟩
  | .unary _ _ e | .group e | .get e _ => by
    rw [expr, Expr.occurrences]
    exact expr_concur hP e
  | .binary _ _ e e' | .logical _ _ e e' | .set e _ e' => by
    rw [expr, Expr.occurrences, ids_append]
    exact ((expr_concur hP e).bind (expr_concur hP e')).imp fun _ => Distances.agreeAll_append.2
  | .call _ e es => by
    rw [expr, Expr.occurrences, ids_append]
    exact ((expr_concur hP e).bind (exprs_concur hP es)).imp fun _ => Distances.agreeAll_append.2

theorem exprs_concur (hP : ForExpressions l P) : ∀ es,
    Concur P P (ids (Expr.occurrencesList es)) (fun T => Expr.FitListIn T l es) (exprs region es) (exprs region es)
  | [] => by
    rw [exprs]
    exact Concur.pure.imp fun _ _ => List.forall_mem_nil _
  | e :: es => by
    rw [exprs, Expr.occurrencesList, ids_append]
    exact ((expr_concur hP e).bind (exprs_concur hP es)).imp fun _ => Distances.agreeAll_append.2

end

lemma exprOption_concur (hP : ForExpressions l P) (e : Option (Expr OccurrenceId)) :
    Concur P P (ids (Expr.occurrencesOption e)) (fun T => Expr.FitOptionIn T l e) (exprOption region e)
      (exprOption region e) := by
  cases e with
  | none => exact Concur.pure.imp fun _ _ => List.forall_mem_nil _
  | some e => exact expr_concur hP e

lemma superclass_concur (hP : ForExpressions l P) (name : Ident) (parent : Option (Occurrence OccurrenceId)) :
    Concur P P (ids parent.toList) (fun T => T.AgreeAll l parent.toList) (superclass region name parent)
      (superclass region name parent) := by
  cases parent with
  | none => exact Concur.pure.imp fun _ _ => List.forall_mem_nil _
  | some use =>
    exact ((warnIf_concur _ _).bind (read_concur hP .identifier use)).imp fun _ h =>
      Distances.agreeAll_singleton.2 h.2

end Expressions

/-! ### Scopes that are opened and closed -/

lemma open_concur (b : Bool) {y : Resolving Unit} (hopen : ∀ r : Resolver, ∃ q, y r = .ok () q ∧
      q.scopes = (if b then r.scopes else [] :: r.scopes) ∧ q.warnings = r.warnings ∧ q.locals = r.locals) :
    Concur (Calm l) (Calm (b :: l)) [] (fun _ => True) (modify fun r => { r with scopes := [] :: r.scopes }) y := by
  refine .step fun r r' hP hw => ?_
  obtain ⟨q', hy, hS, hwq, hlocals⟩ := hopen r'
  refine ⟨_, q', rfl, hy, ⟨?_, Settled.cons settled_empty hP.settled⟩, hwq.trans hw, rfl, hlocals⟩
  rw [hS]
  cases b with
  | false => exact .own hP.thinned
  | true => exact .round hP.thinned

lemma close_concur (b : Bool) {y : Resolving Unit} (hclose : ∀ r : Resolver, ∃ q, y r = .ok () q ∧
      q.scopes = (if b then r.scopes else r.scopes.tail) ∧ q.warnings = r.warnings ∧ q.locals = r.locals) :
    Concur (Calm (b :: l)) (Calm l) [] (fun _ => True) (modify fun r => { r with scopes := r.scopes.tail }) y := by
  refine .step fun r r' hP hw => ?_
  obtain ⟨q', hy, hS, hwq, hlocals⟩ := hclose r'
  refine ⟨_, q', rfl, hy, ⟨?_, hP.settled.tail⟩, hwq.trans hw, rfl, hlocals⟩
  have hthinned := hP.thinned
  rw [hS]
  show Thinned l r.scopes.tail _
  revert hthinned
  generalize r.scopes = S, r'.scopes = S'
  rintro (_ | h | h) <;> exact h

/-- A scope of both sides. -/
lemma inScope_concur (h : Concur (Calm (false :: l)) (Calm (false :: l)) is C x y) :
    Concur (Calm l) (Calm l) is C (inScope x) (inScope y) :=
  .around (open_concur false fun _ => ⟨_, rfl, rfl, rfl, rfl⟩) h
    (close_concur false fun _ => ⟨_, rfl, rfl, rfl, rfl⟩)

/-- **A scope that the source does not have.** -/
lemma inRound_concur (h : Concur (Calm (true :: l)) (Calm (true :: l)) is C x y) :
    Concur (Calm l) (Calm l) is C (inScope x) y := by
  have hall : Concur (Calm l) (Calm l) is C (inScope x) (do y; pure ()) :=
    .around (open_concur true fun r => ⟨r, rfl, rfl, rfl, rfl⟩) h
      (close_concur true fun r => ⟨r, rfl, rfl, rfl, rfl⟩)
  rwa [show (do y; pure () : Resolving Unit) = y from bind_pure_unit] at hall

/-! ### Statements -/

lemma declaration_concur (name : Ident) (hl : l.Own) (h : Concur (Pending l name.text) (Pending l name.text) is C x y) :
    Concur (Calm l) (Calm l) is (fun T => l.Own ∧ C T) (do declare name; x; define name.text)
      (do declare name; y; define name.text) :=
  ((declare_concur name hl).around h (define_concur name.text)).imp fun _ h => ⟨hl, h⟩

lemma introduce_concur (name : Ident) (hl : l.Own) (h : Concur (Calm l) (Calm l) is C x y) :
    Concur (Calm l) (Calm l) is C (do declare name; define name.text; x) (do declare name; define name.text; y) :=
  ((declare_concur name hl).bind ((define_concur name.text).bind h)).imp fun _ h => h.2.2

lemma params_concur (hl : l.Own) : ∀ ps, Concur (Calm l) (Calm l) [] (fun _ => True) (params ps) (params ps)
  | [] => .pure
  | p :: ps => introduce_concur p hl (params_concur hl ps)

lemma reservedNames_concur (inSubclass : Bool) (hl : l.Own) :
    Concur (Calm l) (Calm l) [] (fun _ => True) (reservedNames inSubclass) (reservedNames inSubclass) := by
  cases inSubclass
  · exact ((defineReserved_concur "this" hl).bind .pure).imp fun _ _ => trivial
  · exact ((defineReserved_concur "this" hl).bind (defineReserved_concur "super" hl)).imp fun _ _ => trivial

/-- What stands in the block around a body and an increment declares nothing. -/
lemma isRound_declares {body : List (Stmt OccurrenceId)} {p : Prop} (h : Stmt.isRound body = true) :
    ∀ s ∈ body, s.declaresHere = true → p := by
  unfold Stmt.isRound at h
  split at h
  · next t e =>
    intro s hs hd
    rcases List.mem_cons.1 hs with rfl | hs
    · rw [hd] at h
      cases h
    · obtain rfl := List.mem_singleton.1 hs
      cases hd
  · cases h

mutual

/-- **Resolving a statement goes the same way as it is written.** -/
theorem stmt_concur : ∀ (l : Layers) (region : Region) s, (s.declaresHere = true → l.Own) →
    Concur (Calm l) (Calm l) (ids s.occurrences) (fun T => s.FitsIn T l) (stmt region s) (Source.stmt region s)
  | l, region, .expr e, _ | l, region, .print e, _ => by
    rw [stmt, Source.stmt, Stmt.occurrences]
    exact expr_concur calm_forExpressions e
  | l, region, .letVar name value, hs => by
    rw [stmt, Source.stmt, Stmt.occurrences]
    exact declaration_concur name (hs rfl) (exprOption_concur pending_forExpressions value)
  | l, region, .constVar name value, hs => by
    rw [stmt, Source.stmt, Stmt.occurrences]
    exact declaration_concur name (hs rfl) (expr_concur pending_forExpressions value)
  | l, region, .block body, _ => by
    rw [stmt, Source.stmt, Stmt.occurrences]
    simp only [Stmt.FitsIn]
    cases hround : Stmt.isRound body with
    | true =>
      -- a body and an increment declare nothing in the block
      have hbody : ∀ s ∈ body, s.declaresHere = true → Layers.Own (true :: l) := isRound_declares hround
      exact inRound_concur (stmts_concur (true :: l) region body hbody)
    | false => exact inScope_concur (stmts_concur (false :: l) region body fun _ _ _ => Layers.own_false)
  | l, region, .ifThen c yes, hs => by
    rw [stmt, Source.stmt, Stmt.occurrences, ids_append]
    exact (expr_concur calm_forExpressions c).bind (stmt_concur l region yes hs)
  | l, region, .ifElse c yes no, hs => by
    rw [stmt, Source.stmt, Stmt.occurrences, ids_append, ids_append, List.append_assoc]
    have hyes : yes.declaresHere = true → l.Own := fun h => hs (by rw [Stmt.declaresHere, h, Bool.true_or])
    have hno : no.declaresHere = true → l.Own := fun h => hs (by rw [Stmt.declaresHere, h, Bool.or_true])
    exact (expr_concur calm_forExpressions c).bind
      ((stmt_concur l region yes hyes).bind (stmt_concur l region no hno))
  | l, region, .while c body, hs => by
    rw [stmt, Source.stmt, Stmt.occurrences, ids_append]
    exact (expr_concur calm_forExpressions c).bind (stmt_concur l region body hs)
  | l, region, .function decl, hs => by
    rw [stmt, Source.stmt, Stmt.occurrences]
    exact (introduce_concur decl.name (hs rfl) (function_concur l region.nested decl)).imp fun _ h => ⟨hs rfl, h⟩
  | l, region, .return line value, _ => by
    rw [stmt, Source.stmt, Stmt.occurrences]
    split
    · exact .throw
    · exact exprOption_concur calm_forExpressions value
  | l, region, .classDecl name parent methodDecls staticDecls, hs => by
    rw [stmt, Source.stmt, Stmt.occurrences, ids_append, ids_append, List.append_assoc]
    have hown : l.Own := hs rfl
    have hmethods := inScope_concur
      ((reservedNames_concur parent.isSome Layers.own_false).bind (methods_concur l parent.isSome methodDecls))
    have hinner := introduce_concur name hown (hmethods.bind (statics_concur l staticDecls))
    exact ((superclass_concur calm_forExpressions name parent).bind hinner).imp fun _ h =>
      ⟨hown, h.1, h.2.1.2, h.2.2⟩

/-- Several statements. -/
theorem stmts_concur : ∀ (l : Layers) (region : Region) ss, (∀ s ∈ ss, s.declaresHere = true → l.Own) →
    Concur (Calm l) (Calm l) (ids (Stmt.occurrencesList ss)) (fun T => Stmt.FitListIn T l ss) (stmts region ss)
      (Source.stmts region ss)
  | l, region, [], _ => by
    rw [stmts, Source.stmts]
    exact .pure
  | l, region, s :: ss, h => by
    rw [stmts, Source.stmts, Stmt.occurrencesList, ids_append]
    obtain ⟨hs, hss⟩ := List.forall_mem_cons.1 h
    exact (stmt_concur l region s hs).bind (stmts_concur l region ss hss)

/-- A function. -/
theorem function_concur : ∀ (l : Layers) (region : Region) d,
    Concur (Calm l) (Calm l) (ids (FunctionDecl.occurrences d)) (fun T => FunctionDecl.FitsIn T l d)
      (function region d) (Source.function region d)
  | l, region, ⟨_, ps, body⟩ => by
    rw [function, Source.function, FunctionDecl.occurrences]
    have hbody := stmts_concur (false :: l) region body fun _ _ _ => Layers.own_false
    exact inScope_concur (((params_concur Layers.own_false ps).bind hbody).imp fun _ h => h.2)

/-- The methods of a class. -/
theorem methods_concur : ∀ (l : Layers) (inSubclass : Bool) ds,
    Concur (Calm (false :: l)) (Calm (false :: l)) (ids (FunctionDecl.occurrencesList ds))
      (fun T => FunctionDecl.FitListIn T (false :: l) ds) (methods inSubclass ds) (Source.methods inSubclass ds)
  | l, inSubclass, [] => by
    rw [methods, Source.methods]
    exact .pure
  | l, inSubclass, d :: ds => by
    rw [methods, Source.methods, FunctionDecl.occurrencesList, ids_append]
    exact (function_concur (false :: l) _ d).bind (methods_concur l inSubclass ds)

/-- The static methods of a class. -/
theorem statics_concur : ∀ (l : Layers) ds,
    Concur (Calm l) (Calm l) (ids (FunctionDecl.occurrencesList ds)) (fun T => FunctionDecl.FitListIn T l ds)
      (statics ds) (Source.statics ds)
  | l, [] => by
    rw [statics, Source.statics]
    exact .pure
  | l, d :: ds => by
    rw [statics, Source.statics, FunctionDecl.occurrencesList, ids_append]
    exact (function_concur l .function d).bind (statics_concur l ds)

end

/-! ### Programs -/

lemma topLevel_of_source_stmts : ∀ {program : Program OccurrenceId} {r r' : Resolver},
    Source.stmts .topLevel program r = .ok () r' → Source.topLevel r program = ([], r')
  | [], r, r', h => by
    rw [Source.stmts] at h
    cases h
    rfl
  | s :: ss, r, r', h => by
    rw [Source.stmts] at h
    obtain ⟨q, hq, hr'⟩ := bind_ok h
    rw [Source.topLevel, hq]
    exact topLevel_of_source_stmts hr'

/-- **Resolving a program finds the same errors and gives the same warnings** as it is written. -/
lemma topLevel_concur : ∀ (program : Program OccurrenceId) {r r' : Resolver}, r.scopes = [] → r'.scopes = [] →
    r'.warnings = r.warnings → (Source.topLevel r' program).1 = (r.topLevel program).1 ∧
      (Source.topLevel r' program).2.warnings = (r.topLevel program).2.warnings ∧
        (Source.topLevel r' program).2.scopes = []
  | [], _, _, _, hS', hw => ⟨rfl, hw, hS'⟩
  | s :: ss, r, r', hS, hS', hw => by
    have hcalm : Calm [] r.scopes r'.scopes := by
      rw [hS, hS']
      exact ⟨.nil, List.forall_mem_nil _⟩
    rw [Resolver.topLevel, Source.topLevel]
    obtain ⟨q, q', hx, hy, hQ, hwq, -⟩ | ⟨e, q, q', hx, hy, hwq⟩ :=
      (stmt_concur [] .topLevel s (fun _ => Layers.own_nil) r r' hcalm hw).inv
    · rw [hx, hy]
      have hthinned := hQ.thinned
      generalize hl : ([] : Layers) = l at hthinned
      generalize hqs : q.scopes = S, hqs' : q'.scopes = S' at hthinned
      cases hthinned with
      | nil => exact topLevel_concur ss hqs hqs' hwq
      | own | round => cases hl
    · rw [hx, hy]
      obtain ⟨herrors, hwarnings, hscopes⟩ := @topLevel_concur ss { q with scopes := [] } { q' with scopes := [] } rfl rfl hwq
      exact ⟨congrArg (e :: ·) herrors, hwarnings, hscopes⟩

/-- What two accepting answers to a program have to do with each other. -/
structure Resolution.Concurs (program : Program OccurrenceId) (res res' : Resolution) : Prop where
  warnings : res'.warnings = res.warnings
  outside : ∀ k ∉ ids (Stmt.occurrencesList program), res.locals[k]? = none ∧ res'.locals[k]? = none
  fits : ∀ T : Distances, T.Covers (ids (Stmt.occurrencesList program)) res.locals res'.locals →
    Stmt.FitListIn T [] program

lemma source_resolve_snd (program : Program OccurrenceId) : (Source.resolve .empty program).2 = .empty := by
  obtain ⟨-, -, hscopes⟩ := @topLevel_concur program .empty .empty rfl rfl rfl
  show Resolver.mk (Source.topLevel .empty program).2.scopes ∅ [] = _
  rw [hscopes]
  rfl

/-- **A program is accepted or rejected as it is written, with the same warnings and errors**, and if it is accepted its
code fits. -/
theorem resolve_concur {program : Program OccurrenceId} (hn : (ids (Stmt.occurrencesList program)).Nodup) :
    (∃ rejection, (Resolver.empty.resolve program).1 = .error rejection ∧
        (Source.resolve .empty program).1 = .error rejection) ∨
      ∃ res res', (Resolver.empty.resolve program).1 = .ok res ∧ (Source.resolve .empty program).1 = .ok res' ∧
        res.Concurs program res' := by
  obtain ⟨herrors, hwarnings, -⟩ := @topLevel_concur program .empty .empty rfl rfl rfl
  rcases htop : Resolver.empty.topLevel program with ⟨errors, q⟩
  rcases htop' : Source.topLevel .empty program with ⟨errors', q'⟩
  rw [htop, htop'] at herrors hwarnings
  obtain rfl : errors' = errors := herrors
  unfold Resolver.resolve Source.resolve
  rw [htop, htop']
  cases errors' with
  | cons e es =>
    refine .inl ⟨⟨e :: es, q.warnings⟩, rfl, ?_⟩
    exact congrArg (fun ws => Except.error (⟨e :: es, ws⟩ : Rejection)) hwarnings
  | nil =>
    refine .inr ⟨⟨q.locals, q.warnings⟩, ⟨q'.locals, q'.warnings⟩, rfl, rfl, ?_⟩
    have hrun : stmts .topLevel program .empty = .ok () q := by
      rw [← stmtsT_run]
      exact (topLevel_ok htop).1
    have hcalm : Calm [] Resolver.empty.scopes Resolver.empty.scopes := ⟨.nil, List.forall_mem_nil _⟩
    have hfresh : FreshFor (ids (Stmt.occurrencesList program)) Resolver.empty.locals := fun _ _ =>
      Std.TreeMap.getElem?_emptyc
    obtain ⟨p, p', hx, hy, -, -, ht, ht', hE⟩ | ⟨e, p, p', hx, -⟩ :=
      (stmts_concur [] .topLevel program (fun _ _ _ => Layers.own_nil) .empty .empty hcalm rfl).inv
    · obtain rfl : q = p := by
        rw [hrun] at hx
        cases hx
        rfl
      obtain rfl : q' = p' := by
        rw [topLevel_of_source_stmts hy] at htop'
        cases htop'
        rfl
      refine ⟨hwarnings, fun k hk => ⟨?_, ?_⟩, fun T hT => hE hn hfresh hfresh T hT⟩
      · exact (ht k hk).trans Std.TreeMap.getElem?_emptyc
      · exact (ht' k hk).trans Std.TreeMap.getElem?_emptyc
    · rw [hrun] at hx
      cases hx

end ScriptLang

import ScriptLang.Proofs.Addressing.TopLevel
import ScriptLang.Proofs.Renaming.Tables

/-!
# Resolving renamed code

Code that is aligned with resolved code is resolved as well, with the same table.  Where a name is found, the
name that is written for it is found on the other side: inside the scope nothing is called by the new name, so
it is hidden by no other name and hides none.

* `ScopesAligned`, `ScopesAligned.distance?` — the scopes on both sides, and distances in them;
* `Follows` — what one computation enters, the other one enters too;
* `stmt_follows` — the theorem for statements, and `resolve_aligned` for programs.
-/

namespace ScriptLang.Resolving

/-! ### Scopes -/

/-- The same scopes, but for the names in the one scope. -/
inductive ScopesAligned (ρ : Renaming) : Distance → List Scope → List Scope → Prop
  | away {l} : ScopesAligned ρ none l l
  | chosen {scope scope' outer} : Table.Rekeyed ρ (some 0) Eq scope scope' →
    ScopesAligned ρ (some 0) (scope :: outer) (scope' :: outer)
  | inside {k scope scope' l l'} : Table.Rekeyed ρ (some (k + 1)) Eq scope scope' → ScopesAligned ρ (some k) l l' →
    ScopesAligned ρ (some (k + 1)) (scope :: l) (scope' :: l')

variable {ρ : Renaming} {d d' : Distance} {l l' outer : List Scope} {scope scope' : Scope} {name : String}
  {found : Option Nat}

lemma distance?_cons : distance? (scope :: l) name =
    if scope.has name then some 0 else (distance? l name).map (· + 1) := List.findIdx?_cons

lemma written_cases (ρ : Renaming) (d : Distance) (found : Option Nat) (name : String) :
    ρ.written d found name = name ∨ d = found ∧ d ≠ none ∧ ρ.written d found name = ρ.new := by
  cases found with
  | none => exact .inl rfl
  | some hops =>
    by_cases h : d = some hops ∧ name = ρ.old
    · exact .inr ⟨h.1, by rw [h.1]; nofun, if_pos h⟩
    · exact .inl (if_neg h)

lemma written_inner : ρ.written d.inner (found.map (· + 1)) name = ρ.written d found name := by
  cases found with
  | none => rfl
  | some hops => exact ρ.text_inner_succ

/-- The innermost scope has what is written for a name if it has the name. -/
lemma rekeyed_has_written (h : Table.Rekeyed ρ d Eq scope scope') (hname : ρ.Admits d name) :
    scope'.has (ρ.written d (distance? (scope :: l) name) name) = scope.has name := by
  rw [distance?_cons]
  cases hhas : scope.has name with
  | true => exact (h.has hname).trans hhas
  | false =>
    rw [if_neg Bool.false_ne_true]
    rcases written_cases ρ d ((distance? l name).map (· + 1)) name with heq | ⟨hd, hd', heq⟩
    · rw [heq]
      exact h.not_has hname hhas
    · rw [heq]
      refine h.not_has_new hd' fun hd0 => ?_
      rw [hd0] at hd
      cases hfound : distance? l name <;> rw [hfound] at hd <;> cases hd

/-- **What is written for a name is found where the name is found.** -/
lemma ScopesAligned.distance? (h : ScopesAligned ρ d l l') (hname : ρ.Admits d name) :
    distance? l' (ρ.written d (Resolving.distance? l name) name) = Resolving.distance? l name := by
  induction h with
  | away => rw [ρ.written_none]
  | @chosen scope scope' outer hscope =>
    rw [distance?_cons, rekeyed_has_written hscope hname, distance?_cons]
    split
    · rfl
    · cases hfound : Resolving.distance? outer name with
      | none => exact congrArg _ hfound
      | some k => exact congrArg _ hfound
  | @inside k scope scope' l l' hscope _ ih =>
    rw [distance?_cons, rekeyed_has_written hscope hname, distance?_cons]
    split
    · rfl
    · rw [show (some (k + 1) : Distance) = Distance.inner (some k) from rfl, written_inner,
        ih fun _ => hname nofun]

/-- What is written for a name can be read where the name can be read. -/
lemma ScopesAligned.readable (h : ScopesAligned ρ d l l') (hname : ρ.Admits d name)
    (hread : ∀ scope ∈ l.head?, scope.get? name ≠ some .declared) :
    ∀ scope ∈ l'.head?, scope.get? (ρ.written d (Resolving.distance? l name) name) ≠ some .declared := by
  have one : ∀ {scope scope' : Scope} {outer : List Scope}, Table.Rekeyed ρ d Eq scope scope' →
      scope.get? name ≠ some .declared →
        scope'.get? (ρ.written d (Resolving.distance? (scope :: outer) name) name) ≠ some .declared := by
    intro scope scope' outer hscope hread heq
    have hhas : scope.has name = true := by
      rw [← rekeyed_has_written (l := outer) hscope hname, Table.has, heq]
      rfl
    rw [distance?_cons, if_pos hhas] at heq
    have hrel := hscope.get? hname
    rw [show scope'.get? (ρ.text d 0 name) = _ from heq] at hrel
    generalize hget : scope.get? name = o at hrel
    cases hrel with
    | some hb => exact hread (hget.trans (congrArg some hb))
  cases h with
  | away =>
    rw [ρ.written_none]
    exact hread
  | chosen hscope =>
    rintro _ ⟨⟩
    exact one hscope (hread _ rfl)
  | inside hscope _ =>
    rintro _ ⟨⟩
    exact one hscope (hread _ rfl)

lemma ScopesAligned.enter {b : Binding} (h : ScopesAligned ρ d l l') (hname : ρ.Admits d name) :
    ScopesAligned ρ d (enter name b l) (enter (ρ.text d 0 name) b l') := by
  cases h with
  | away =>
    rw [ρ.text_none]
    exact .away
  | chosen hscope => exact .chosen (hscope.put hname rfl)
  | inside hscope hl => exact .inside (hscope.put hname rfl) hl

lemma ScopesAligned.push (h : ScopesAligned ρ d l l') (he : Distance.Enters d d') :
    ScopesAligned ρ d' ([] :: l) ([] :: l') := by
  cases he with
  | chosen =>
    cases h
    exact .chosen .nil
  | further =>
    cases h with
    | away => exact .away
    | chosen hscope => exact .inside .nil (.chosen hscope)
    | inside hscope hl => exact .inside .nil (.inside hscope hl)

lemma ScopesAligned.tail (h : ScopesAligned ρ d' l l') (he : Distance.Enters d d') :
    ScopesAligned ρ d l.tail l'.tail := by
  cases he with
  | chosen =>
    cases h
    exact .away
  | further =>
    cases d with
    | none =>
      cases h
      exact .away
    | some k =>
      cases h with
      | inside _ hl => exact hl

/-! ### Computations -/

/-- The same table, and aligned scopes. -/
structure Matched (ρ : Renaming) (d : Distance) (r r' : Resolver) : Prop where
  scopes : ScopesAligned ρ d r.scopes r'.scopes
  locals : r'.locals = r.locals

/-- The first computation enters something only under the given numbers.  If these are new and different, and the
table of the renaming has what is entered under them, then the second computation enters the same. -/
def Follows (ρ : Renaming) (d : Distance) (is : List OccurrenceId) (x x' : Resolving Unit) : Prop :=
  ∀ r q, x r = .ok () q → Touches is r q ∧ ∀ r', is.Nodup → FreshFor is r.locals → AgreeOn is ρ.locals q.locals →
    Matched ρ d r r' → ∃ q', x' r' = .ok () q' ∧ Matched ρ d q q'

variable {is js : List OccurrenceId} {x x' y y' : Resolving Unit} {region : Region}

lemma Follows.bind (h : Follows ρ d is x x') (h' : Follows ρ d js y y') :
    Follows ρ d (is ++ js) (do x; y) (do x'; y') := by
  intro r q hxy
  obtain ⟨p, hx, hy⟩ := bind_ok hxy
  obtain ⟨htouch, hx⟩ := h r p hx
  obtain ⟨htouch', hy⟩ := h' p q hy
  refine ⟨htouch.trans htouch', fun r' hn hf hL hm => ?_⟩
  obtain ⟨hn1, hn2, -⟩ := List.nodup_append.1 hn
  obtain ⟨hf1, hf2, hL1, hL2⟩ := htouch.split htouch' hn hf hL
  obtain ⟨p', hp', hm'⟩ := hx r' hn1 hf1 hL1 hm
  obtain ⟨q', hq', hm''⟩ := hy p' hn2 hf2 hL2 hm'
  exact ⟨q', (Traced.bind_ok hp').trans hq', hm''⟩

lemma Follows.pure : Follows ρ d [] (pure ()) (pure ()) := by
  intro r q hx
  cases hx
  exact ⟨fun _ _ => rfl, fun r' _ _ _ hm => ⟨r', rfl, hm⟩⟩

lemma Follows.inScope (he : Distance.Enters d d') (h : Follows ρ d' is x x') :
    Follows ρ d is (inScope x) (inScope x') := by
  intro r q hx
  obtain ⟨r1, hr1, hx⟩ := bind_ok hx
  obtain ⟨r2, hbody, hr2⟩ := bind_ok hx
  cases hr1
  cases hr2
  obtain ⟨htouch, hx⟩ := h _ r2 hbody
  refine ⟨htouch, fun r' hn hf hL hm => ?_⟩
  obtain ⟨q', hq', hm'⟩ := hx { r' with scopes := [] :: r'.scopes } hn hf hL ⟨hm.scopes.push he, hm.locals⟩
  have hopen : (modify fun r => { r with scopes := [] :: r.scopes } : Resolving Unit) r' =
      .ok () { r' with scopes := [] :: r'.scopes } := rfl
  exact ⟨_, (Traced.bind_ok hopen).trans (Traced.bind_ok hq'), hm'.scopes.tail he, hm'.locals⟩

/-! ### Single steps -/

lemma bind_follows {b : Binding} (hname : ρ.Admits d name) :
    Follows ρ d [] (Resolving.bind name b) (Resolving.bind (ρ.text d 0 name) b) := by
  intro r q hx
  obtain ⟨hscopes, hlocals⟩ := bind_rescopes hx
  refine ⟨fun _ _ => by rw [hlocals], fun r' _ _ _ hm => ?_⟩
  obtain ⟨q', hq'⟩ : ∃ q', Resolving.bind (ρ.text d 0 name) b r' = .ok () q' := ⟨_, rfl⟩
  obtain ⟨hscopes', hlocals'⟩ := bind_rescopes hq'
  refine ⟨q', hq', ?_, by rw [hlocals', hlocals, hm.locals]⟩
  rw [hscopes, hscopes']
  exact hm.scopes.enter hname

lemma warnIf_follows {c c' : Bool} {w w' : ScopeWarning} : Follows ρ d [] (warnIf c w) (warnIf c' w') := by
  intro r q hx
  obtain ⟨hscopes, hlocals⟩ := warnIf_rescopes hx
  refine ⟨fun _ _ => by rw [hlocals], fun r' _ _ _ hm => ?_⟩
  obtain ⟨q', hq'⟩ : ∃ q', warnIf c' w' r' = .ok () q' := by cases c' <;> exact ⟨_, rfl⟩
  obtain ⟨hscopes', hlocals'⟩ := warnIf_rescopes hq'
  exact ⟨q', hq', by rw [hscopes, hscopes']; exact hm.scopes, by rw [hlocals', hlocals, hm.locals]⟩

lemma declare_follows {name : Ident} (hname : ρ.Admits d name.text) :
    Follows ρ d [] (declare name) (declare (ρ.declared d name)) := by
  intro r q hx
  refine ⟨fun _ _ => by rw [(declare_rescopes hx).2], fun r' hn hf hL hm => ?_⟩
  obtain ⟨again, heq⟩ := declare_eq name r
  obtain ⟨again', heq'⟩ := declare_eq (ρ.declared d name) r'
  obtain ⟨-, hfollow⟩ := (bind_follows hname).bind warnIf_follows r q (heq.symm.trans hx)
  obtain ⟨q', hq', hm'⟩ := hfollow r' hn hf hL hm
  exact ⟨q', heq'.trans hq', hm'⟩

lemma locate_follows {id : OccurrenceId} (hname : ρ.Admits d name) :
    Follows ρ d [id] (locate id name) (locate id (ρ.written d ρ.locals[id]? name)) := by
  intro r q hx
  have hlocates := locate_locates hx
  refine ⟨fun k hk => hlocates.other k (by simpa using hk), fun r' _ hf hL hm => ?_⟩
  have hfound : ρ.locals[id]? = distance? r.scopes name := by
    rw [hL id (List.mem_singleton.2 rfl), hlocates.self (hf id (List.mem_singleton.2 rfl))]
  have hsame := hm.scopes.distance? hname
  rw [← hfound] at hsame
  rcases hd : distance? r.scopes name with _ | depth
  · rw [locate_none hd] at hx
    cases hx
    exact ⟨r', locate_none (hsame.trans (hfound.trans hd)), hm⟩
  · rw [locate_some hd] at hx
    cases hx
    exact ⟨_, locate_some (hsame.trans (hfound.trans hd)), hm.scopes, congrArg (·.insert id depth) hm.locals⟩

lemma name_follows {use : Occurrence OccurrenceId} (hname : ρ.Admits d use.text) :
    Follows ρ d [use.id] (read region .identifier use) (read region .identifier (ρ.used d use)) := by
  intro r q hx
  obtain ⟨p, hc, hl⟩ := bind_ok hx
  obtain ⟨rfl, hreadable⟩ := checkReadable_ok hc
  obtain ⟨htouch, hfollow⟩ := locate_follows hname p q hl
  refine ⟨htouch, fun r' hn hf hL hm => ?_⟩
  obtain ⟨q', hq', hm'⟩ := hfollow r' hn hf hL hm
  refine ⟨q', ?_, hm'⟩
  have hfound : ρ.locals[use.id]? = distance? p.scopes use.text := by
    rw [hL use.id (List.mem_singleton.2 rfl),
      (locate_locates hl).self (hf use.id (List.mem_singleton.2 rfl))]
  have hreadable' := hm.scopes.readable hname hreadable
  rw [← hfound] at hreadable'
  have hcheck : checkReadable (ρ.used d use).toIdent r' = .ok () r' := by
    rcases r' with ⟨_ | ⟨scope, outer⟩, locals, warnings⟩
    · rfl
    · exact congrFun (if_neg (hreadable' scope rfl)) _
  exact (Traced.bind_ok hcheck).trans hq'

/-- A reserved word is looked up under the same name on both sides. -/
lemma reserved_follows (hρ : ρ.Plain) {id : OccurrenceId} {word : String} (hword : word = "this" ∨ word = "super") :
    Follows ρ d [id] (locate id word) (locate id word) := by
  have hne : word ≠ ρ.old ∧ word ≠ ρ.new := by
    rcases hword with rfl | rfl
    · exact ⟨hρ.old_this.symm, hρ.new_this.symm⟩
    · exact ⟨hρ.old_super.symm, hρ.new_super.symm⟩
  have h : Follows ρ d [id] (locate id word) (locate id (ρ.written d ρ.locals[id]? word)) :=
    locate_follows fun _ => hne.2
  rwa [ρ.written_of_ne hne.1] at h

lemma read_follows (hρ : ρ.Plain) {kind : NameKind} {use : Occurrence OccurrenceId} (hkind : kind ≠ .identifier) :
    Follows ρ d [use.id] (read region kind use) (read region kind use) := by
  cases kind with
  | identifier => exact absurd rfl hkind
  | this => exact warnIf_follows.bind (reserved_follows hρ (.inl rfl))
  | super => exact warnIf_follows.bind (reserved_follows hρ (.inr rfl))

lemma reservedNames_follow (hρ : ρ.Plain) (inSubclass : Bool) :
    Follows ρ d.inner [] (reservedNames inSubclass) (reservedNames inSubclass) := by
  have hdefine : ∀ {word}, word ≠ ρ.new → Follows ρ d.inner [] (define word) (define word) := by
    intro word hword
    have h : Follows ρ d.inner [] (Resolving.bind word .defined) (Resolving.bind (ρ.text d.inner 0 word) .defined) :=
      bind_follows fun _ => hword
    rwa [ρ.text_inner_zero] at h
  cases inSubclass
  · exact (hdefine hρ.new_this.symm).bind .pure
  · exact (hdefine hρ.new_this.symm).bind (hdefine hρ.new_super.symm)

/-! ### Trees -/

mutual

theorem expr_follows (hρ : ρ.Plain) : ∀ (e : Expr OccurrenceId) {e' : Expr OccurrenceId}, e.Aligned ρ d e' →
    Follows ρ d (ids e.occurrences) (expr region e) (expr region e')
  | .literal _, _, .literal => by
    rw [expr]
    exact .pure
  | .name _ use, _, .name hname => by
    rw [expr, expr]
    exact name_follows hname
  | .name _ use, _, .reserved hkind _ => by
    rw [expr]
    exact read_follows hρ hkind
  | .superGet keyword _, _, .superGet _ => by
    rw [expr]
    exact read_follows hρ nofun
  | .assign target e, _, .assign hname h => by
    rw [expr, expr, Expr.occurrences, ids_append]
    exact (expr_follows hρ e h).bind (locate_follows hname)
  | .unary _ _ e, _, .unary h | .group e, _, .group h | .get e _, _, .get h => by
    rw [expr, expr]
    exact expr_follows hρ e h
  | .binary _ _ e g, _, .binary h h' | .logical _ _ e g, _, .logical h h' | .set e _ g, _, .set h h' => by
    rw [expr, expr, Expr.occurrences, ids_append]
    exact (expr_follows hρ e h).bind (expr_follows hρ g h')
  | .call _ e es, _, .call h hs => by
    rw [expr, expr, Expr.occurrences, ids_append]
    exact (expr_follows hρ e h).bind (exprs_follow hρ es hs)

theorem exprs_follow (hρ : ρ.Plain) : ∀ (es : List (Expr OccurrenceId)) {es' : List (Expr OccurrenceId)},
    List.Forall₂ (Expr.Aligned ρ d) es es' →
      Follows ρ d (ids (Expr.occurrencesList es)) (exprs region es) (exprs region es')
  | [], _, .nil => by
    rw [exprs]
    exact .pure
  | e :: es, _, .cons h hs => by
    rw [exprs, exprs, Expr.occurrencesList, ids_append]
    exact (expr_follows hρ e h).bind (exprs_follow hρ es hs)

end

lemma exprOption_follows (hρ : ρ.Plain) {e e' : Option (Expr OccurrenceId)}
    (h : Option.Rel (Expr.Aligned ρ d) e e') :
    Follows ρ d (ids (Expr.occurrencesOption e)) (exprOption region e) (exprOption region e') := by
  cases h with
  | none => exact .pure
  | some h => exact expr_follows hρ _ h

lemma superclass_follows {name : Ident} {parent parent' : Option (Occurrence OccurrenceId)}
    (h : AlignedParent ρ d parent parent') :
    Follows ρ d (ids parent.toList) (superclass region name parent) (superclass region name parent') := by
  obtain ⟨hname, rfl⟩ := h
  cases parent with
  | none => exact .pure
  | some use => exact warnIf_follows.bind (name_follows (hname use rfl))

/-- A declaration whose value is resolved between declaring and defining the name. -/
lemma declaration_follows {name : Ident} (hname : ρ.Admits d name.text) (h : Follows ρ d is x x') :
    Follows ρ d is (do declare name; x; define name.text)
      (do declare (ρ.declared d name); x'; define (ρ.declared d name).text) := by
  have hall := (declare_follows hname).bind (h.bind (bind_follows (b := .defined) hname))
  rwa [List.append_nil, List.nil_append] at hall

/-- A declaration whose name is defined at once, and stays as it is. -/
lemma definition_follows {name : Ident} (hname : ρ.Admits d name.text) (hsame : ρ.declared d name = name)
    (h : Follows ρ d is x x') :
    Follows ρ d is (do declare name; define name.text; x) (do declare name; define name.text; x') := by
  have hdeclare : Follows ρ d [] (declare name) (declare (ρ.declared d name)) := declare_follows hname
  have hdefine : Follows ρ d [] (define name.text) (define (ρ.declared d name).text) := bind_follows hname
  rw [hsame] at hdeclare hdefine
  exact hdeclare.bind (hdefine.bind h)

lemma params_follow : ∀ {ps : List Ident}, (∀ p ∈ ps, ρ.Admits d p.text) →
    Follows ρ d [] (params ps) (params (ps.map (ρ.declared d)))
  | [], _ => .pure
  | p :: ps, h => by
    obtain ⟨hp, hps⟩ := List.forall_mem_cons.1 h
    exact (declare_follows hp).bind ((bind_follows hp).bind (params_follow hps))

mutual

theorem stmt_follows (hρ : ρ.Plain) : ∀ {d : Distance} (region : Region) (s : Stmt OccurrenceId)
    {s' : Stmt OccurrenceId}, s.Aligned ρ d s' → Follows ρ d (ids s.occurrences) (stmt region s) (stmt region s')
  | _, region, .expr _, _, .expr h | _, region, .print _, _, .print h => by
    rw [stmt, stmt, Stmt.occurrences]
    exact expr_follows hρ _ h
  | _, region, .letVar name _, _, .letVar hname h => by
    rw [stmt, stmt, Stmt.occurrences]
    exact declaration_follows hname (exprOption_follows hρ h)
  | _, region, .constVar name _, _, .constVar hname h => by
    rw [stmt, stmt, Stmt.occurrences]
    exact declaration_follows hname (expr_follows hρ _ h)
  | _, region, .block body, _, .block he h => by
    rw [stmt, stmt, Stmt.occurrences]
    exact (stmts_follow hρ region body h).inScope he
  | _, region, .ifThen _ s, _, .ifThen hc h | _, region, .while _ s, _, .while hc h => by
    rw [stmt, stmt, Stmt.occurrences, ids_append]
    exact (expr_follows hρ _ hc).bind (stmt_follows hρ region s h)
  | _, region, .ifElse _ s t, _, .ifElse hc hs ht => by
    rw [stmt, stmt, Stmt.occurrences, ids_append, ids_append, List.append_assoc]
    exact (expr_follows hρ _ hc).bind ((stmt_follows hρ region s hs).bind (stmt_follows hρ region t ht))
  | _, region, .function decl, _, .function hname hsame h => by
    rw [stmt, stmt, Stmt.occurrences, h.name]
    exact definition_follows hname hsame (function_follows hρ region.nested decl h)
  | _, region, .return _ _, _, .return h => by
    rw [stmt, stmt, Stmt.occurrences]
    split
    · exact nofun
    · exact exprOption_follows hρ h
  | d, region, .classDecl name parent methodDecls staticDecls, _, .classDecl hname hsame hp hm hs => by
    rw [stmt, stmt, Stmt.occurrences, ids_append, ids_append, List.append_assoc, hp.2, Option.isSome_map]
    have hmethods := ((reservedNames_follow hρ parent.isSome).bind
      (methods_follow hρ parent.isSome methodDecls hm)).inScope (d := d) .further
    rw [← hp.2]
    exact (superclass_follows hp).bind
      (definition_follows hname hsame (hmethods.bind (statics_follow hρ staticDecls hs)))

theorem stmts_follow (hρ : ρ.Plain) : ∀ {d : Distance} (region : Region) (ss : List (Stmt OccurrenceId))
    {ss' : List (Stmt OccurrenceId)}, Stmt.AlignedList ρ d ss ss' →
      Follows ρ d (ids (Stmt.occurrencesList ss)) (stmts region ss) (stmts region ss')
  | _, region, [], _, .nil => by
    rw [stmts]
    exact .pure
  | _, region, s :: ss, _, .cons h hs => by
    rw [stmts, stmts, Stmt.occurrencesList, ids_append]
    exact (stmt_follows hρ region s h).bind (stmts_follow hρ region ss hs)

theorem function_follows (hρ : ρ.Plain) : ∀ {d : Distance} (region : Region)
    (decl : FunctionDecl (Stmt OccurrenceId)) {decl' : FunctionDecl (Stmt OccurrenceId)},
      FunctionDecl.Aligned ρ d decl decl' →
        Follows ρ d (ids (FunctionDecl.occurrences decl)) (function region decl) (function region decl')
  | _, region, ⟨_, ps, body⟩, _, .mk he hps h => by
    rw [function, function, FunctionDecl.occurrences]
    exact ((params_follow hps).bind (stmts_follow hρ region body h)).inScope he

theorem methods_follow (hρ : ρ.Plain) : ∀ {d : Distance} (inSubclass : Bool)
    (decls : List (FunctionDecl (Stmt OccurrenceId))) {decls' : List (FunctionDecl (Stmt OccurrenceId))},
      FunctionDecl.AlignedList ρ d decls decls' →
        Follows ρ d (ids (FunctionDecl.occurrencesList decls)) (methods inSubclass decls) (methods inSubclass decls')
  | _, inSubclass, [], _, .nil => by
    rw [methods]
    exact .pure
  | _, inSubclass, decl :: decls, _, .cons h hs => by
    rw [methods, methods, FunctionDecl.occurrencesList, ids_append, h.name]
    exact (function_follows hρ _ decl h).bind (methods_follow hρ inSubclass decls hs)

theorem statics_follow (hρ : ρ.Plain) : ∀ {d : Distance}
    (decls : List (FunctionDecl (Stmt OccurrenceId))) {decls' : List (FunctionDecl (Stmt OccurrenceId))},
      FunctionDecl.AlignedList ρ d decls decls' →
        Follows ρ d (ids (FunctionDecl.occurrencesList decls)) (statics decls) (statics decls')
  | _, [], _, .nil => by
    rw [statics]
    exact .pure
  | _, decl :: decls, _, .cons h hs => by
    rw [statics, statics, FunctionDecl.occurrencesList, ids_append]
    exact (function_follows hρ .function decl h).bind (statics_follow hρ decls hs)

end

/-! ### Programs -/

/-- **A program that is aligned with an accepted one is accepted, with the same table.** -/
theorem resolve_aligned (hρ : ρ.Plain) {program program' : Program OccurrenceId} {res : Resolution}
    (hprogram : Stmt.AlignedList ρ none program program') (hn : (ids (Stmt.occurrencesList program)).Nodup)
    (h : (Resolver.empty.resolve program).1 = .ok res)
    (hL : AgreeOn (ids (Stmt.occurrencesList program)) ρ.locals res.locals) :
    ∃ res', (Resolver.empty.resolve program').1 = .ok res' ∧ res'.locals = res.locals := by
  obtain ⟨q, htop, rfl⟩ := resolve_ok_iff.1 h
  have hrun : stmts .topLevel program .empty = .ok () q := by
    rw [← stmtsT_run]
    exact (topLevel_ok htop).1
  obtain ⟨-, hfollow⟩ := stmts_follow hρ .topLevel program hprogram .empty q hrun
  obtain ⟨q', hq', hm⟩ := hfollow .empty hn (fun _ _ => Std.TreeMap.getElem?_emptyc) hL ⟨.away, rfl⟩
  exact ⟨_, resolve_ok_iff.2 ⟨q', topLevel_of_stmts hq', rfl⟩, hm.locals⟩

end ScriptLang.Resolving

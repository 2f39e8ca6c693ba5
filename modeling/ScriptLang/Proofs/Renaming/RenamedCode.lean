import Mathlib.Data.List.Pairwise
import ScriptLang.Proofs.Renaming.Aligned
import ScriptLang.Proofs.Renaming.Redeclarations

/-!
# Renamed code is aligned

A program that does not have the new name, and declares different names in each scope, is aligned with the
program in which a name is renamed in one scope.

* `Stmt.Fit`, `Stmt.FitList` — code that can be renamed, and what follows for its parts;
* `Stmt.aligned_renamed` — code inside the scope;
* `Stmt.Renames.aligned`, `Program.Renames.aligned` — code around it;
* `Program.Renames.old_plain` — the old name is not a reserved one.
-/

namespace ScriptLang

variable {ρ : Renaming} {d : Distance}

/-! ### Code that can be renamed -/

/-- The same names with another table. -/
def Renaming.over (ρ : Renaming) (L : Locals) : Renaming := { ρ with locals := L }

/-- The statement is a function or a class, and this is its name. -/
def Stmt.fixedName? {ι : Type} : Stmt ι → Option String
  | .function decl => some decl.name.text
  | .classDecl name .. => some name.text
  | _ => none

/-- No use of a name is one of the new name, and the other table says the same of all of them. -/
def UsesFit (ρ : Renaming) (L : Locals) (os : List (Occurrence OccurrenceId)) : Prop :=
  ∀ o ∈ os, o.text ≠ ρ.new ∧ L[o.id]? = ρ.locals[o.id]?

/-- An expression that does not have the new name. -/
structure Expr.Fit (ρ : Renaming) (L : Locals) (e : Expr OccurrenceId) : Prop where
  regular : e.Regular
  uses : UsesFit ρ L e.occurrences

/-- A statement that does not have the new name, and declares different names in each scope. -/
structure Stmt.Fit (ρ : Renaming) (L : Locals) (s : Stmt OccurrenceId) : Prop where
  regular : s.Regular
  uses : UsesFit ρ L s.occurrences
  declared : ρ.new ∉ s.declaredNames
  distinct : s.Distinct

/-- Statements that do not have the new name, and declare different names in each scope. -/
structure Stmt.FitList (ρ : Renaming) (L : Locals) (ss : List (Stmt OccurrenceId)) : Prop where
  regular : Stmt.RegularList ss
  uses : UsesFit ρ L (Stmt.occurrencesList ss)
  declared : ρ.new ∉ Stmt.declaredNamesList ss
  distinct : Stmt.DistinctList ss

/-- A function that does not have the new name, and declares different names in each scope. -/
structure FunctionDecl.Fit (ρ : Renaming) (L : Locals) (decl : FunctionDecl (Stmt OccurrenceId)) : Prop where
  regular : FunctionDecl.Regular decl
  uses : UsesFit ρ L (FunctionDecl.occurrences decl)
  declared : ρ.new ∉ FunctionDecl.declaredNames decl
  distinct : FunctionDecl.Distinct decl

/-- Functions that do not have the new name, and declare different names in each scope. -/
structure FunctionDecl.FitList (ρ : Renaming) (L : Locals) (decls : List (FunctionDecl (Stmt OccurrenceId))) :
    Prop where
  regular : FunctionDecl.RegularList decls
  uses : UsesFit ρ L (FunctionDecl.occurrencesList decls)
  declared : ρ.new ∉ FunctionDecl.declaredNamesList decls
  distinct : FunctionDecl.DistinctList decls

section Fit

variable {L : Locals} {os os' : List (Occurrence OccurrenceId)} {c : Expr OccurrenceId} {s t : Stmt OccurrenceId}
  {ss body before behind : List (Stmt OccurrenceId)} {name : Ident} {params : List Ident}
  {parent : Option (Occurrence OccurrenceId)} {decl : FunctionDecl (Stmt OccurrenceId)}
  {decls methods statics first last : List (FunctionDecl (Stmt OccurrenceId))}

lemma usesFit_append : UsesFit ρ L (os ++ os') ↔ UsesFit ρ L os ∧ UsesFit ρ L os' := List.forall_mem_append

lemma Stmt.FitList.cons (h : Stmt.FitList ρ L (s :: ss)) : s.Fit ρ L ∧ Stmt.FitList ρ L ss := by
  obtain ⟨⟨hr, hrs⟩, huses, hdeclared, hd, hds⟩ := h
  obtain ⟨hu, hus⟩ := usesFit_append.1 huses
  obtain ⟨hn, hns⟩ := not_or.1 (mt List.mem_append.2 hdeclared)
  exact ⟨⟨hr, hu, hn, hd⟩, hrs, hus, hns, hds⟩

lemma FunctionDecl.FitList.cons (h : FunctionDecl.FitList ρ L (decl :: decls)) :
    FunctionDecl.Fit ρ L decl ∧ FunctionDecl.FitList ρ L decls := by
  obtain ⟨⟨hr, hrs⟩, huses, hdeclared, hd, hds⟩ := h
  obtain ⟨hu, hus⟩ := usesFit_append.1 huses
  obtain ⟨hn, hns⟩ := not_or.1 (mt List.mem_append.2 hdeclared)
  exact ⟨⟨hr, hu, hn, hd⟩, hrs, hus, hns, hds⟩

lemma Stmt.FitList.mid (h : Stmt.FitList ρ L (before ++ s :: behind)) : s.Fit ρ L := by
  induction before with
  | nil => exact h.cons.1
  | cons t before ih => exact ih h.cons.2

lemma FunctionDecl.FitList.mid (h : FunctionDecl.FitList ρ L (first ++ decl :: last)) :
    FunctionDecl.Fit ρ L decl := by
  induction first with
  | nil => exact h.cons.1
  | cons d first ih => exact ih h.cons.2

lemma Stmt.Fit.block (h : (Stmt.block body).Fit ρ L) :
    Stmt.FitList ρ L body ∧ (body.flatMap Stmt.scopeNames).Nodup :=
  ⟨⟨h.regular, h.uses, h.declared, h.distinct.2⟩, h.distinct.1⟩

lemma Stmt.Fit.ifThen (h : (Stmt.ifThen c s).Fit ρ L) : c.Fit ρ L ∧ s.isDeclaration = false ∧ s.Fit ρ L := by
  obtain ⟨⟨hrc, hs, hr⟩, huses, hdeclared, hd⟩ := h
  obtain ⟨huc, hu⟩ := usesFit_append.1 huses
  exact ⟨⟨hrc, huc⟩, hs, hr, hu, hdeclared, hd⟩

lemma Stmt.Fit.loop (h : (Stmt.while c s).Fit ρ L) : c.Fit ρ L ∧ s.isDeclaration = false ∧ s.Fit ρ L := by
  obtain ⟨⟨hrc, hs, hr⟩, huses, hdeclared, hd⟩ := h
  obtain ⟨huc, hu⟩ := usesFit_append.1 huses
  exact ⟨⟨hrc, huc⟩, hs, hr, hu, hdeclared, hd⟩

lemma Stmt.Fit.ifElse (h : (Stmt.ifElse c s t).Fit ρ L) :
    c.Fit ρ L ∧ (s.isDeclaration = false ∧ s.Fit ρ L) ∧ t.isDeclaration = false ∧ t.Fit ρ L := by
  obtain ⟨⟨hrc, ⟨hs, hrs⟩, ht, hrt⟩, huses, hdeclared, hds, hdt⟩ := h
  obtain ⟨huses, hut⟩ := usesFit_append.1 huses
  obtain ⟨huc, hus⟩ := usesFit_append.1 huses
  obtain ⟨hns, hnt⟩ := not_or.1 (mt List.mem_append.2 hdeclared)
  exact ⟨⟨hrc, huc⟩, ⟨hs, hrs, hus, hns, hds⟩, ht, hrt, hut, hnt, hdt⟩

lemma Stmt.Fit.function (h : (Stmt.function decl).Fit ρ L) : FunctionDecl.Fit ρ L decl :=
  ⟨h.regular, h.uses, h.declared, h.distinct⟩

lemma Stmt.Fit.classDecl (h : (Stmt.classDecl name parent methods statics).Fit ρ L) :
    ρ.new ≠ name.text ∧ UsesFit ρ L parent.toList ∧ FunctionDecl.FitList ρ L methods ∧
      FunctionDecl.FitList ρ L statics := by
  obtain ⟨⟨-, hrm, hrs⟩, huses, hdeclared, hdm, hds⟩ := h
  obtain ⟨huses, hus⟩ := usesFit_append.1 huses
  obtain ⟨hup, hum⟩ := usesFit_append.1 huses
  obtain ⟨hn, hdeclared⟩ := not_or.1 (mt List.mem_cons.2 hdeclared)
  obtain ⟨hnm, hns⟩ := not_or.1 (mt List.mem_append.2 hdeclared)
  exact ⟨hn, hup, ⟨hrm, hum, hnm, hdm⟩, hrs, hus, hns, hds⟩

lemma FunctionDecl.Fit.parts (h : FunctionDecl.Fit ρ L ⟨name, params, body⟩) :
    ρ.new ≠ name.text ∧ ρ.new ∉ params.map (·.text) ∧ Stmt.FitList ρ L body ∧
      (params.map (·.text) ++ body.flatMap Stmt.scopeNames).Nodup := by
  obtain ⟨⟨-, -, hr⟩, huses, hdeclared, hnodup, hd⟩ := h
  obtain ⟨hn, hdeclared⟩ := not_or.1 (mt List.mem_cons.2 hdeclared)
  obtain ⟨hnp, hnb⟩ := not_or.1 (mt List.mem_append.2 hdeclared)
  exact ⟨hn, hnp, ⟨hr, huses, hnb, hd⟩, hnodup⟩

/-! ### Code inside the scope -/

lemma fixedName?_of_not_declaration {ι : Type} {s : Stmt ι} (h : s.isDeclaration = false) :
    s.fixedName? = none := by
  cases s with
  | function | classDecl => cases h
  | _ => rfl

lemma declared_of_fixed (h : d = some 0 → some name.text ≠ some ρ.old) : ρ.declared d name = name := by
  unfold Renaming.declared Renaming.text
  rw [if_neg fun hn => h hn.1 (congrArg some hn.2)]

lemma used_over {use : Occurrence OccurrenceId} (h : L[use.id]? = ρ.locals[use.id]?) :
    (ρ.over L).used d use = ρ.used d use := by
  unfold Renaming.used Renaming.over
  rw [h]
  rfl

variable (d)

mutual

theorem Expr.aligned_renamed : ∀ e : Expr OccurrenceId, e.Fit ρ L → e.Aligned (ρ.over L) d (e.renamed ρ d)
  | .literal _, _ => .literal
  | .name .identifier use, h => by
    obtain ⟨hne, hid⟩ := h.uses use (List.mem_singleton.2 rfl)
    rw [Expr.renamed, ← used_over hid]
    exact .name fun _ => hne
  | .name .this use, h => .reserved nofun fun _ => h.regular
  | .name .super use, h => .reserved nofun fun _ => h.regular
  | .assign target e, h => by
    obtain ⟨huses, htarget⟩ := usesFit_append.1 h.uses
    obtain ⟨hne, hid⟩ := htarget target (List.mem_singleton.2 rfl)
    rw [Expr.renamed, ← used_over hid]
    exact .assign (fun _ => hne) (e.aligned_renamed ⟨h.regular, huses⟩)
  | .unary _ _ e, h => .unary (e.aligned_renamed ⟨h.regular, h.uses⟩)
  | .binary _ _ e g, h => by
    obtain ⟨hue, hug⟩ := usesFit_append.1 h.uses
    exact .binary (e.aligned_renamed ⟨h.regular.1, hue⟩) (g.aligned_renamed ⟨h.regular.2, hug⟩)
  | .logical _ _ e g, h => by
    obtain ⟨hue, hug⟩ := usesFit_append.1 h.uses
    exact .logical (e.aligned_renamed ⟨h.regular.1, hue⟩) (g.aligned_renamed ⟨h.regular.2, hug⟩)
  | .group e, h => .group (e.aligned_renamed ⟨h.regular, h.uses⟩)
  | .call _ e es, h => by
    obtain ⟨hue, hues⟩ := usesFit_append.1 h.uses
    exact .call (e.aligned_renamed ⟨h.regular.1, hue⟩) (Expr.alignedList_renamed es h.regular.2 hues)
  | .get e _, h => .get (e.aligned_renamed ⟨h.regular, h.uses⟩)
  | .superGet _ _, h => .superGet fun _ => h.regular
  | .set e _ g, h => by
    obtain ⟨hue, hug⟩ := usesFit_append.1 h.uses
    exact .set (e.aligned_renamed ⟨h.regular.1, hue⟩) (g.aligned_renamed ⟨h.regular.2, hug⟩)

theorem Expr.alignedList_renamed : ∀ es : List (Expr OccurrenceId), Expr.RegularList es →
    UsesFit ρ L (Expr.occurrencesList es) → List.Forall₂ (Expr.Aligned (ρ.over L) d) es (Expr.renamedList ρ d es)
  | [], _, _ => .nil
  | e :: es, hr, hu => by
    obtain ⟨hue, hues⟩ := usesFit_append.1 hu
    exact .cons (e.aligned_renamed ⟨hr.1, hue⟩) (Expr.alignedList_renamed es hr.2 hues)

end

lemma Expr.alignedOption_renamed (e : Option (Expr OccurrenceId)) (hr : Expr.RegularOption e)
    (hu : UsesFit ρ L (Expr.occurrencesOption e)) :
    Option.Rel (Expr.Aligned (ρ.over L) d) e (e.map fun e => e.renamed ρ d) := by
  cases e with
  | none => exact .none
  | some e => exact .some (e.aligned_renamed d ⟨hr, hu⟩)

lemma alignedParent_renamed (hu : UsesFit ρ L parent.toList) :
    AlignedParent (ρ.over L) d parent (parent.map (ρ.used d)) := by
  cases parent with
  | none => exact ⟨nofun, rfl⟩
  | some use =>
    obtain ⟨hne, hid⟩ := hu use (List.mem_singleton.2 rfl)
    refine ⟨?_, congrArg some (used_over hid).symm⟩
    rintro _ ⟨⟩ _
    exact hne

variable {d}

mutual

theorem Stmt.aligned_renamed : ∀ (d : Distance) (s : Stmt OccurrenceId), s.Fit ρ L →
    (d = some 0 → s.fixedName? ≠ some ρ.old) → s.Aligned (ρ.over L) d (s.renamed ρ d)
  | d, .expr e, h, _ => .expr (e.aligned_renamed d ⟨h.regular, h.uses⟩)
  | d, .print e, h, _ => .print (e.aligned_renamed d ⟨h.regular, h.uses⟩)
  | d, .letVar name e, h, _ => .letVar (fun _ heq => h.declared (List.mem_singleton.2 heq.symm))
    (Expr.alignedOption_renamed d e h.regular.2 h.uses)
  | d, .constVar name e, h, _ => .constVar (fun _ heq => h.declared (List.mem_singleton.2 heq.symm))
    (e.aligned_renamed d ⟨h.regular.2, h.uses⟩)
  | d, .block body, h, _ =>
    .block .further (Stmt.alignedList_renamed d.inner body h.block.1 fun hd => (by cases d <;> cases hd))
  | d, .ifThen c s, h, _ => by
    obtain ⟨hc, hno, hs⟩ := h.ifThen
    exact .ifThen (c.aligned_renamed d hc) (s.aligned_renamed d hs fun _ => by
      rw [fixedName?_of_not_declaration hno]
      nofun)
  | d, .ifElse c s t, h, _ => by
    obtain ⟨hc, ⟨hnos, hs⟩, hnot, ht⟩ := h.ifElse
    refine .ifElse (c.aligned_renamed d hc) (s.aligned_renamed d hs fun _ => ?_)
      (t.aligned_renamed d ht fun _ => ?_)
    · rw [fixedName?_of_not_declaration hnos]
      nofun
    · rw [fixedName?_of_not_declaration hnot]
      nofun
  | d, .while c s, h, _ => by
    obtain ⟨hc, hno, hs⟩ := h.loop
    exact .while (c.aligned_renamed d hc) (s.aligned_renamed d hs fun _ => by
      rw [fixedName?_of_not_declaration hno]
      nofun)
  | d, .function decl, h, hfixed => by
    refine .function (fun _ heq => ?_) (declared_of_fixed hfixed)
      (FunctionDecl.aligned_renamed decl .further h.function fun hd => (by cases d <;> cases hd))
    cases decl
    exact h.function.parts.1 heq.symm
  | d, .return _ e, h, _ => .return (Expr.alignedOption_renamed d e h.regular h.uses)
  | d, .classDecl name parent methods statics, h, hfixed => by
    obtain ⟨hname, hparent, hmethods, hstatics⟩ := h.classDecl
    exact .classDecl (fun _ heq => hname heq.symm) (declared_of_fixed hfixed) (alignedParent_renamed d hparent)
      (FunctionDecl.alignedList_renamed d.inner methods hmethods)
      (FunctionDecl.alignedList_renamed d statics hstatics)

theorem Stmt.alignedList_renamed : ∀ (d : Distance) (ss : List (Stmt OccurrenceId)), Stmt.FitList ρ L ss →
    (d = some 0 → ∀ s ∈ ss, s.fixedName? ≠ some ρ.old) →
      Stmt.AlignedList (ρ.over L) d ss (Stmt.renamedList ρ d ss)
  | _, [], _, _ => .nil
  | d, s :: ss, h, hfixed => .cons (s.aligned_renamed d h.cons.1 fun hd => hfixed hd s List.mem_cons_self)
    (Stmt.alignedList_renamed d ss h.cons.2 fun hd s hs => hfixed hd s (List.mem_cons_of_mem _ hs))

theorem FunctionDecl.aligned_renamed : ∀ {d d' : Distance} (decl : FunctionDecl (Stmt OccurrenceId)),
    Distance.Enters d d' → FunctionDecl.Fit ρ L decl →
      (d' = some 0 → ∀ s ∈ decl.body, s.fixedName? ≠ some ρ.old) →
        FunctionDecl.Aligned (ρ.over L) d decl (FunctionDecl.renamed ρ d' decl)
  | _, d', ⟨name, params, body⟩, henters, h, hfixed => by
    obtain ⟨-, hparams, hbody, -⟩ := h.parts
    exact .mk henters (fun p hp _ heq => hparams (heq ▸ List.mem_map_of_mem hp))
      (Stmt.alignedList_renamed d' body hbody hfixed)

theorem FunctionDecl.alignedList_renamed : ∀ (d : Distance) (decls : List (FunctionDecl (Stmt OccurrenceId))),
    FunctionDecl.FitList ρ L decls →
      FunctionDecl.AlignedList (ρ.over L) d decls (FunctionDecl.renamedList ρ d.inner decls)
  | _, [], _ => .nil
  | d, decl :: decls, h => .cons
    (FunctionDecl.aligned_renamed decl .further h.cons.1 fun hd => (by cases d <;> cases hd))
    (FunctionDecl.alignedList_renamed d decls h.cons.2)

end

/-! ### Code around the scope -/

lemma Stmt.Lets.mem_scopeNames {ι : Type} {text : String} {s : Stmt ι} (h : s.Lets text) :
    text ∈ s.scopeNames ∧ s.fixedName? = none := by
  cases s with
  | letVar | constVar => exact ⟨List.mem_singleton.2 (Eq.symm h), rfl⟩
  | _ => cases h

lemma mem_scopeNames_of_fixed {ι : Type} {text : String} {s : Stmt ι} (h : s.fixedName? = some text) :
    text ∈ s.scopeNames := by
  cases s with
  | function | classDecl =>
    cases h
    exact List.mem_singleton.2 rfl
  | _ => cases h

/-- Where the declared names are different, the name of a variable is not that of a function or a class. -/
lemma fixedName?_ne {names : List String} {text : String}
    (hnodup : (names ++ body.flatMap Stmt.scopeNames).Nodup) (h : text ∈ names ∨ Stmt.LetsIn text body) :
    ∀ s ∈ body, s.fixedName? ≠ some text := by
  intro s hs hfixed
  have hmem := mem_scopeNames_of_fixed hfixed
  obtain ⟨-, hbody, hdisjoint⟩ := List.nodup_append.1 hnodup
  rcases h with h | ⟨t, ht, hlets⟩
  · exact hdisjoint text h text (List.mem_flatMap.2 ⟨s, hs, hmem⟩) rfl
  · obtain ⟨htext, hnone⟩ := hlets.mem_scopeNames
    have hne : t ≠ s := by
      rintro rfl
      rw [hnone] at hfixed
      cases hfixed
    have hsymm : Std.Symm (Function.onFun List.Disjoint (@Stmt.scopeNames OccurrenceId)) :=
      ⟨fun _ _ hd _ h h' => hd h' h⟩
    exact (List.nodup_flatMap.1 hbody).2.forall ht hs hne htext hmem

lemma Stmt.AlignedList.mid (before behind : List (Stmt OccurrenceId)) {s s' : Stmt OccurrenceId}
    (h : s.Aligned ρ none s') : Stmt.AlignedList ρ none (before ++ s :: behind) (before ++ s' :: behind) := by
  induction before with
  | nil => exact .cons h (Stmt.alignedList_self ρ behind)
  | cons t before ih => exact .cons (t.aligned_self ρ) ih

lemma FunctionDecl.AlignedList.mid (first last : List (FunctionDecl (Stmt OccurrenceId)))
    {decl decl' : FunctionDecl (Stmt OccurrenceId)} (h : FunctionDecl.Aligned ρ none decl decl') :
    FunctionDecl.AlignedList ρ none (first ++ decl :: last) (first ++ decl' :: last) := by
  induction first with
  | nil => exact .cons h (FunctionDecl.alignedList_self ρ last)
  | cons d first ih => exact .cons (FunctionDecl.aligned_self ρ d) ih

mutual

/-- **A statement is aligned with one in which a name is renamed in one scope.** -/
theorem Stmt.Renames.aligned : ∀ {s s' : Stmt OccurrenceId}, s.Renames ρ s' → s.Fit ρ L →
    s.Aligned (ρ.over L) none s'
  | _, _, .scope hlets, h => by
    obtain ⟨hbody, hnodup⟩ := h.block
    rw [← List.nil_append (List.flatMap _ _)] at hnodup
    exact .block .chosen (Stmt.alignedList_renamed (some 0) _ hbody fun _ => fixedName?_ne hnodup (.inr hlets))
  | _, _, .block hs, h => .block .further (.mid _ _ (hs.aligned h.block.1.mid))
  | _, _, .ifThen hs, h => .ifThen (Expr.aligned_self _ _) (hs.aligned h.ifThen.2.2)
  | _, _, .yes hs, h => .ifElse (Expr.aligned_self _ _) (hs.aligned h.ifElse.2.1.2) (Stmt.aligned_self _ _)
  | _, _, .no hs, h => .ifElse (Expr.aligned_self _ _) (Stmt.aligned_self _ _) (hs.aligned h.ifElse.2.2.2)
  | _, _, .while hs, h => .while (Expr.aligned_self _ _) (hs.aligned h.loop.2.2)
  | _, _, .function hd, h =>
    .function (Renaming.admits_none _) (Renaming.declared_none _ _) (hd.aligned h.function)
  | _, _, .method hd, h => .classDecl (Renaming.admits_none _) (Renaming.declared_none _ _)
    (alignedParent_self _ _) (.mid _ _ (hd.aligned h.classDecl.2.2.1.mid)) (FunctionDecl.alignedList_self _ _)
  | _, _, .static hd, h => .classDecl (Renaming.admits_none _) (Renaming.declared_none _ _)
    (alignedParent_self _ _) (FunctionDecl.alignedList_self _ _) (.mid _ _ (hd.aligned h.classDecl.2.2.2.mid))

/-- A function is aligned with one in which a name is renamed in one scope. -/
theorem FunctionDecl.Renames.aligned : ∀ {decl decl' : FunctionDecl (Stmt OccurrenceId)},
    FunctionDecl.Renames ρ decl decl' → FunctionDecl.Fit ρ L decl →
      FunctionDecl.Aligned (ρ.over L) none decl decl'
  | ⟨_, _, _⟩, _, .scope hdeclares, h =>
    FunctionDecl.aligned_renamed _ .chosen h fun _ => fixedName?_ne h.parts.2.2.2 hdeclares
  | _, _, .body hs, h => FunctionDecl.aligned_of_body _ (.mid _ _ (hs.aligned h.parts.2.2.1.mid))

end

theorem Program.Renames.aligned {program program' : Program OccurrenceId} (h : program.Renames ρ program')
    (hfit : Stmt.FitList ρ L program) : Stmt.AlignedList (ρ.over L) none program program' := by
  obtain ⟨hs⟩ := h
  exact .mid _ _ (hs.aligned hfit.mid)

/-! ### The old name

It has been declared, and so it is not a reserved one.
-/

lemma LetsIn.old_plain (h : Stmt.LetsIn ρ.old body) (hr : Stmt.RegularList body) :
    ρ.old ≠ "this" ∧ ρ.old ≠ "super" := by
  obtain ⟨s, hs, hlets⟩ := h
  induction body with
  | nil => cases hs
  | cons t body ih =>
    rcases List.mem_cons.1 hs with rfl | hs
    · cases s with
      | letVar name e | constVar name e =>
        have hold : name.text = ρ.old := hlets
        exact hold ▸ hr.1.1
      | _ => cases hlets
    · exact ih hr.2 hs

mutual

theorem Stmt.Renames.old_plain : ∀ {s s' : Stmt OccurrenceId}, s.Renames ρ s' → s.Fit ρ L →
    ρ.old ≠ "this" ∧ ρ.old ≠ "super"
  | _, _, .scope hlets, h => LetsIn.old_plain hlets h.block.1.regular
  | _, _, .block hs, h => hs.old_plain h.block.1.mid
  | _, _, .ifThen hs, h => hs.old_plain h.ifThen.2.2
  | _, _, .yes hs, h => hs.old_plain h.ifElse.2.1.2
  | _, _, .no hs, h => hs.old_plain h.ifElse.2.2.2
  | _, _, .while hs, h => hs.old_plain h.loop.2.2
  | _, _, .function hd, h => hd.old_plain h.function
  | _, _, .method hd, h => hd.old_plain h.classDecl.2.2.1.mid
  | _, _, .static hd, h => hd.old_plain h.classDecl.2.2.2.mid

theorem FunctionDecl.Renames.old_plain : ∀ {decl decl' : FunctionDecl (Stmt OccurrenceId)},
    FunctionDecl.Renames ρ decl decl' → FunctionDecl.Fit ρ L decl → ρ.old ≠ "this" ∧ ρ.old ≠ "super"
  | ⟨_, _, _⟩, _, .scope (.inl hparam), h => by
    obtain ⟨p, hp, hold⟩ := List.mem_map.1 hparam
    exact hold ▸ h.regular.2.1 p hp
  | ⟨_, _, _⟩, _, .scope (.inr hlets), h => LetsIn.old_plain hlets h.regular.2.2
  | _, _, .body hs, h => hs.old_plain h.parts.2.2.1.mid

end

theorem Program.Renames.old_plain {program program' : Program OccurrenceId} (h : program.Renames ρ program')
    (hfit : Stmt.FitList ρ L program) : ρ.old ≠ "this" ∧ ρ.old ≠ "super" := by
  obtain ⟨hs⟩ := h
  exact hs.old_plain hfit.mid

end Fit

end ScriptLang

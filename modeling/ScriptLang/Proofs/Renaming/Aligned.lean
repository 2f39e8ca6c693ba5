import Mathlib.Data.List.Forall2
import ScriptLang.Proofs.Renaming.LocalNames
import ScriptLang.Proofs.Tree.Regular

/-!
# Code aligned with renamed code

One relation holds of code outside the scope of a renaming, of code around it and of code inside of it: both
sides have the same form, and every name on the right is what must be written there for the name on the left.
Inside the scope no name on the left is the new one.

* `Distance.Enters` — how distances change where a scope is entered;
* `Expr.Aligned`, `Stmt.Aligned`, `FunctionDecl.Aligned` — the relation;
* `Stmt.aligned_self` — code away from the scope is aligned with itself.
-/

namespace ScriptLang

/-- Entering a scope: it stands inside the renamed one or away from it, or it is the renamed one itself. -/
inductive Distance.Enters : Distance → Distance → Prop
  | further {d : Distance} : Enters d d.inner
  | chosen : Enters none (some 0)

/-! ### Names -/

namespace Renaming

variable (ρ : Renaming) {d : Distance} {hops : Nat} {name : String}

/-- Inside the scope, the name is not the new one. -/
def Admits (d : Distance) (name : String) : Prop := d ≠ none → name ≠ ρ.new

/-- Neither of the two names is a reserved one. -/
structure Plain : Prop where
  old_this : ρ.old ≠ "this"
  old_super : ρ.old ≠ "super"
  new_this : ρ.new ≠ "this"
  new_super : ρ.new ≠ "super"

lemma admits_none : ρ.Admits none name := fun h => absurd rfl h

@[simp] lemma text_none : ρ.text none hops name = name := if_neg nofun

@[simp] lemma text_inner_zero : ρ.text d.inner 0 name = name := by
  cases d with
  | none => exact ρ.text_none
  | some k => exact if_neg nofun

@[simp] lemma text_inner_succ : ρ.text d.inner (hops + 1) name = ρ.text d hops name := by
  cases d with
  | none => rfl
  | some k =>
    unfold text Distance.inner
    simp only [Option.map_some, Option.some.injEq, Nat.add_right_cancel_iff]

lemma text_of_ne (h : name ≠ ρ.old) : ρ.text d hops name = name := if_neg fun hn => h hn.2

@[simp] lemma written_none {found : Option Nat} : ρ.written none found name = name := by
  cases found with
  | none => rfl
  | some hops => exact ρ.text_none

lemma written_of_ne {found : Option Nat} (h : name ≠ ρ.old) : ρ.written d found name = name := by
  cases found with
  | none => rfl
  | some hops => exact ρ.text_of_ne h

lemma used_none (use : Occurrence OccurrenceId) : ρ.used none use = use := by
  unfold used
  rw [written_none]

lemma declared_none (name : Ident) : ρ.declared none name = name := by
  unfold declared
  rw [text_none]

end Renaming

/-! ### The relation -/

/-- Aligned expressions. -/
inductive Expr.Aligned (ρ : Renaming) (d : Distance) : Expr OccurrenceId → Expr OccurrenceId → Prop
  | literal {value} : Aligned ρ d (.literal value) (.literal value)
  | name {use} : ρ.Admits d use.text → Aligned ρ d (.name .identifier use) (.name .identifier (ρ.used d use))
  | reserved {kind use} : kind ≠ .identifier → (d ≠ none → kind.Spells use.text) →
    Aligned ρ d (.name kind use) (.name kind use)
  | assign {target e e'} : ρ.Admits d target.text → Aligned ρ d e e' →
    Aligned ρ d (.assign target e) (.assign (ρ.used d target) e')
  | unary {op line e e'} : Aligned ρ d e e' → Aligned ρ d (.unary op line e) (.unary op line e')
  | binary {op line e e' g g'} : Aligned ρ d e e' → Aligned ρ d g g' →
    Aligned ρ d (.binary op line e g) (.binary op line e' g')
  | logical {op line e e' g g'} : Aligned ρ d e e' → Aligned ρ d g g' →
    Aligned ρ d (.logical op line e g) (.logical op line e' g')
  | group {e e'} : Aligned ρ d e e' → Aligned ρ d (.group e) (.group e')
  | call {line e e' es es'} : Aligned ρ d e e' → List.Forall₂ (Aligned ρ d) es es' →
    Aligned ρ d (.call line e es) (.call line e' es')
  | get {e e' property} : Aligned ρ d e e' → Aligned ρ d (.get e property) (.get e' property)
  | superGet {keyword property} : (d ≠ none → keyword.text = "super") →
    Aligned ρ d (.superGet keyword property) (.superGet keyword property)
  | set {e e' property g g'} : Aligned ρ d e e' → Aligned ρ d g g' →
    Aligned ρ d (.set e property g) (.set e' property g')

/-- Aligned classes to extend. -/
def AlignedParent (ρ : Renaming) (d : Distance) (parent parent' : Option (Occurrence OccurrenceId)) : Prop :=
  (∀ use ∈ parent, ρ.Admits d use.text) ∧ parent' = parent.map (ρ.used d)

mutual

/-- **Aligned statements.** -/
inductive Stmt.Aligned (ρ : Renaming) : Distance → Stmt OccurrenceId → Stmt OccurrenceId → Prop
  | expr {d e e'} : e.Aligned ρ d e' → Stmt.Aligned ρ d (.expr e) (.expr e')
  | print {d e e'} : e.Aligned ρ d e' → Stmt.Aligned ρ d (.print e) (.print e')
  | letVar {d name e e'} : ρ.Admits d name.text → Option.Rel (Expr.Aligned ρ d) e e' →
    Stmt.Aligned ρ d (.letVar name e) (.letVar (ρ.declared d name) e')
  | constVar {d name e e'} : ρ.Admits d name.text → e.Aligned ρ d e' →
    Stmt.Aligned ρ d (.constVar name e) (.constVar (ρ.declared d name) e')
  | block {d d' body body'} : Distance.Enters d d' → Stmt.AlignedList ρ d' body body' →
    Stmt.Aligned ρ d (.block body) (.block body')
  | ifThen {d c c' s s'} : c.Aligned ρ d c' → Stmt.Aligned ρ d s s' →
    Stmt.Aligned ρ d (.ifThen c s) (.ifThen c' s')
  | ifElse {d c c' s s' t t'} : c.Aligned ρ d c' → Stmt.Aligned ρ d s s' → Stmt.Aligned ρ d t t' →
    Stmt.Aligned ρ d (.ifElse c s t) (.ifElse c' s' t')
  | while {d c c' s s'} : c.Aligned ρ d c' → Stmt.Aligned ρ d s s' →
    Stmt.Aligned ρ d (.while c s) (.while c' s')
  | function {d decl decl'} : ρ.Admits d decl.name.text → ρ.declared d decl.name = decl.name →
    FunctionDecl.Aligned ρ d decl decl' → Stmt.Aligned ρ d (.function decl) (.function decl')
  | return {d line e e'} : Option.Rel (Expr.Aligned ρ d) e e' →
    Stmt.Aligned ρ d (.return line e) (.return line e')
  | classDecl {d name parent parent' methods methods' statics statics'} : ρ.Admits d name.text →
    ρ.declared d name = name → AlignedParent ρ d parent parent' →
    FunctionDecl.AlignedList ρ d.inner methods methods' → FunctionDecl.AlignedList ρ d statics statics' →
    Stmt.Aligned ρ d (.classDecl name parent methods statics) (.classDecl name parent' methods' statics')

/-- Aligned lists of statements. -/
inductive Stmt.AlignedList (ρ : Renaming) :
    Distance → List (Stmt OccurrenceId) → List (Stmt OccurrenceId) → Prop
  | nil {d} : Stmt.AlignedList ρ d [] []
  | cons {d s s' ss ss'} : Stmt.Aligned ρ d s s' → Stmt.AlignedList ρ d ss ss' →
    Stmt.AlignedList ρ d (s :: ss) (s' :: ss')

/-- Aligned functions; the distance is the one from where they stand. -/
inductive FunctionDecl.Aligned (ρ : Renaming) :
    Distance → FunctionDecl (Stmt OccurrenceId) → FunctionDecl (Stmt OccurrenceId) → Prop
  | mk {d d' name params body body'} : Distance.Enters d d' → (∀ p ∈ params, ρ.Admits d' p.text) →
    Stmt.AlignedList ρ d' body body' →
    FunctionDecl.Aligned ρ d ⟨name, params, body⟩ ⟨name, params.map (ρ.declared d'), body'⟩

/-- Aligned lists of functions. -/
inductive FunctionDecl.AlignedList (ρ : Renaming) :
    Distance → List (FunctionDecl (Stmt OccurrenceId)) → List (FunctionDecl (Stmt OccurrenceId)) → Prop
  | nil {d} : FunctionDecl.AlignedList ρ d [] []
  | cons {d decl decl' decls decls'} : FunctionDecl.Aligned ρ d decl decl' →
    FunctionDecl.AlignedList ρ d decls decls' → FunctionDecl.AlignedList ρ d (decl :: decls) (decl' :: decls')

end

variable {ρ : Renaming} {d : Distance}

lemma FunctionDecl.Aligned.name {decl decl' : FunctionDecl (Stmt OccurrenceId)}
    (h : FunctionDecl.Aligned ρ d decl decl') : decl'.name = decl.name := by
  cases h
  rfl

lemma FunctionDecl.Aligned.arity {decl decl' : FunctionDecl (Stmt OccurrenceId)}
    (h : FunctionDecl.Aligned ρ d decl decl') : decl'.arity = decl.arity := by
  cases h
  exact List.length_map _

/-! ### Code outside the scope -/

section Self

variable (ρ : Renaming)

mutual

theorem Expr.aligned_self : ∀ e, Expr.Aligned ρ none e e
  | .literal _ => .literal
  | .name .identifier use => by
    have h : Expr.Aligned ρ none (.name .identifier use) (.name .identifier (ρ.used none use)) :=
      .name ρ.admits_none
    rwa [ρ.used_none] at h
  | .name .this _ => .reserved nofun fun h => absurd rfl h
  | .name .super _ => .reserved nofun fun h => absurd rfl h
  | .assign target e => by
    have h : Expr.Aligned ρ none (.assign target e) (.assign (ρ.used none target) e) :=
      .assign ρ.admits_none e.aligned_self
    rwa [ρ.used_none] at h
  | .unary _ _ e => .unary e.aligned_self
  | .binary _ _ e g => .binary e.aligned_self g.aligned_self
  | .logical _ _ e g => .logical e.aligned_self g.aligned_self
  | .group e => .group e.aligned_self
  | .call _ e es => .call e.aligned_self (Expr.alignedList_self es)
  | .get e _ => .get e.aligned_self
  | .superGet _ _ => .superGet fun h => absurd rfl h
  | .set e _ g => .set e.aligned_self g.aligned_self

theorem Expr.alignedList_self : ∀ es, List.Forall₂ (Expr.Aligned ρ none) es es
  | [] => .nil
  | e :: es => .cons e.aligned_self (Expr.alignedList_self es)

end

lemma Expr.alignedOption_self : ∀ e : Option (Expr OccurrenceId), Option.Rel (Expr.Aligned ρ none) e e
  | none => .none
  | some e => .some (e.aligned_self ρ)

lemma alignedParent_self (parent : Option (Occurrence OccurrenceId)) : AlignedParent ρ none parent parent := by
  refine ⟨fun _ _ => ρ.admits_none, ?_⟩
  cases parent with
  | none => rfl
  | some use => exact congrArg some (ρ.used_none use).symm

/-- Away from the scope, the parameters of a function stay as they are. -/
lemma FunctionDecl.aligned_of_body {name : Ident} {params : List Ident} {body body' : List (Stmt OccurrenceId)}
    (h : Stmt.AlignedList ρ none body body') :
    FunctionDecl.Aligned ρ none ⟨name, params, body⟩ ⟨name, params, body'⟩ := by
  have haligned : FunctionDecl.Aligned ρ none ⟨name, params, body⟩
      ⟨name, params.map (ρ.declared none), body'⟩ := .mk .further (fun _ _ => ρ.admits_none) h
  rwa [show ρ.declared none = id from funext ρ.declared_none, List.map_id] at haligned

mutual

theorem Stmt.aligned_self : ∀ s, Stmt.Aligned ρ none s s
  | .expr e => .expr (e.aligned_self ρ)
  | .print e => .print (e.aligned_self ρ)
  | .letVar name e => by
    have h : Stmt.Aligned ρ none (.letVar name e) (.letVar (ρ.declared none name) e) :=
      .letVar ρ.admits_none (Expr.alignedOption_self ρ e)
    rwa [ρ.declared_none] at h
  | .constVar name e => by
    have h : Stmt.Aligned ρ none (.constVar name e) (.constVar (ρ.declared none name) e) :=
      .constVar ρ.admits_none (e.aligned_self ρ)
    rwa [ρ.declared_none] at h
  | .block body => .block .further (Stmt.alignedList_self body)
  | .ifThen c s => .ifThen (c.aligned_self ρ) s.aligned_self
  | .ifElse c s t => .ifElse (c.aligned_self ρ) s.aligned_self t.aligned_self
  | .while c s => .while (c.aligned_self ρ) s.aligned_self
  | .function decl => .function ρ.admits_none (ρ.declared_none decl.name) (FunctionDecl.aligned_self decl)
  | .return _ e => .return (Expr.alignedOption_self ρ e)
  | .classDecl name parent methods statics =>
    .classDecl ρ.admits_none (ρ.declared_none name) (alignedParent_self ρ parent)
      (FunctionDecl.alignedList_self methods) (FunctionDecl.alignedList_self statics)

theorem Stmt.alignedList_self : ∀ ss, Stmt.AlignedList ρ none ss ss
  | [] => .nil
  | s :: ss => .cons s.aligned_self (Stmt.alignedList_self ss)

theorem FunctionDecl.aligned_self : ∀ decl, FunctionDecl.Aligned ρ none decl decl
  | ⟨_, _, body⟩ => FunctionDecl.aligned_of_body ρ (Stmt.alignedList_self body)

theorem FunctionDecl.alignedList_self : ∀ decls, FunctionDecl.AlignedList ρ none decls decls
  | [] => .nil
  | decl :: decls => .cons (FunctionDecl.aligned_self decl) (FunctionDecl.alignedList_self decls)

end

end Self

end ScriptLang

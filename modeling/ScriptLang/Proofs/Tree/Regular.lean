import ScriptLang.Proofs.Tree.Relabelling
import ScriptLang.Proofs.Token.Spelling
import ScriptLang.Proofs.Grammar.ProgramReading

/-!
# Regular trees

What a tree that was read from a source text has beyond its form: the reserved names stand only where the
reserved words were written, and branches and loop bodies are no bare declarations.

* `Stmt.Regular` — the property;
* `regular_relabel` — it does not depend on lines and identities;
* `AreDeclarations.regular` — the declarations of rightly spelled tokens are regular.
-/

namespace ScriptLang

variable {ι κ : Type}

/-- A declared name is none of the two reserved ones. -/
def Ident.Plain (name : Ident) : Prop := name.text ≠ "this" ∧ name.text ≠ "super"

/-- A word that reads a variable is spelled as its kind says. -/
def NameKind.Spells (kind : NameKind) (text : String) : Prop :=
  match kind with
  | .identifier => True
  | .this => text = "this"
  | .super => text = "super"

mutual

/-- The reserved words in an expression are spelled as such. -/
def Expr.Regular : Expr ι → Prop
  | .literal _ => True
  | .name kind use => kind.Spells use.text
  | .assign _ value => value.Regular
  | .unary _ _ operand => operand.Regular
  | .binary _ _ left right => left.Regular ∧ right.Regular
  | .logical _ _ left right => left.Regular ∧ right.Regular
  | .group inner => inner.Regular
  | .call _ callee args => callee.Regular ∧ Expr.RegularList args
  | .get object _ => object.Regular
  | .superGet keyword _ => keyword.text = "super"
  | .set object _ value => object.Regular ∧ value.Regular

/-- The reserved words in several expressions are spelled as such. -/
def Expr.RegularList : List (Expr ι) → Prop
  | [] => True
  | e :: es => e.Regular ∧ Expr.RegularList es

end

/-- The reserved words in an expression that may be missing are spelled as such. -/
def Expr.RegularOption : Option (Expr ι) → Prop
  | none => True
  | some e => e.Regular

/-- Whether a statement declares a name where it stands. -/
def Stmt.isDeclaration : Stmt ι → Bool
  | .letVar .. | .constVar .. | .function .. | .classDecl .. => true
  | _ => false

mutual

/-- **Regular statements**: the reserved words are spelled as such, no declared name is reserved, and
branches and loop bodies are no declarations. -/
def Stmt.Regular : Stmt ι → Prop
  | .expr e | .print e => e.Regular
  | .letVar name value => name.Plain ∧ Expr.RegularOption value
  | .constVar name value => name.Plain ∧ value.Regular
  | .block body => Stmt.RegularList body
  | .ifThen condition yes => condition.Regular ∧ yes.isDeclaration = false ∧ yes.Regular
  | .ifElse condition yes no => condition.Regular ∧ (yes.isDeclaration = false ∧ yes.Regular) ∧
      no.isDeclaration = false ∧ no.Regular
  | .while condition body => condition.Regular ∧ body.isDeclaration = false ∧ body.Regular
  | .function decl => FunctionDecl.Regular decl
  | .return _ value => Expr.RegularOption value
  | .classDecl name _ methods statics =>
    name.Plain ∧ FunctionDecl.RegularList methods ∧ FunctionDecl.RegularList statics

/-- Several regular statements. -/
def Stmt.RegularList : List (Stmt ι) → Prop
  | [] => True
  | s :: ss => s.Regular ∧ Stmt.RegularList ss

/-- A function with a regular body, and none of the reserved names for itself or a parameter. -/
def FunctionDecl.Regular : FunctionDecl (Stmt ι) → Prop
  | ⟨name, params, body⟩ => name.Plain ∧ (∀ p ∈ params, p.Plain) ∧ Stmt.RegularList body

/-- Several regular functions. -/
def FunctionDecl.RegularList : List (FunctionDecl (Stmt ι)) → Prop
  | [] => True
  | d :: ds => FunctionDecl.Regular d ∧ FunctionDecl.RegularList ds

end

/-! ### Lines and identities -/

section Relabel

variable (f : Nat → Nat) (g : ι → κ)

mutual

theorem Expr.regular_relabel : ∀ e : Expr ι, (e.relabel f g).Regular ↔ e.Regular
  | .literal _ => Iff.rfl
  | .name _ _ | .superGet _ _ => Iff.rfl
  | .assign _ e | .unary _ _ e | .group e | .get e _ => by
    rw [Expr.relabel, Expr.Regular, Expr.Regular, Expr.regular_relabel e]
  | .binary _ _ e e' | .logical _ _ e e' | .set e _ e' => by
    rw [Expr.relabel, Expr.Regular, Expr.Regular, Expr.regular_relabel e, Expr.regular_relabel e']
  | .call _ e es => by
    rw [Expr.relabel, Expr.Regular, Expr.Regular, Expr.regular_relabel e, Expr.regular_relabelList es]

theorem Expr.regular_relabelList : ∀ es : List (Expr ι),
    Expr.RegularList (Expr.relabelList f g es) ↔ Expr.RegularList es
  | [] => Iff.rfl
  | e :: es => by
    rw [Expr.relabelList, Expr.RegularList, Expr.RegularList, Expr.regular_relabel e,
      Expr.regular_relabelList es]

end

lemma Expr.regular_relabelOption (e : Option (Expr ι)) :
    Expr.RegularOption (e.map fun e => e.relabel f g) ↔ Expr.RegularOption e := by
  cases e with
  | none => rfl
  | some e => exact Expr.regular_relabel f g e

lemma Stmt.isDeclaration_relabel (s : Stmt ι) : (s.relabel f g).isDeclaration = s.isDeclaration := by
  cases s <;> rw [Stmt.relabel] <;> rfl

mutual

theorem Stmt.regular_relabel : ∀ s : Stmt ι, (s.relabel f g).Regular ↔ s.Regular
  | .expr e | .print e => by
    rw [Stmt.relabel, Stmt.Regular, Stmt.Regular, Expr.regular_relabel]
  | .letVar _ value => by
    rw [Stmt.relabel, Stmt.Regular, Stmt.Regular, Expr.regular_relabelOption]
    rfl
  | .constVar _ value => by
    rw [Stmt.relabel, Stmt.Regular, Stmt.Regular, Expr.regular_relabel]
    rfl
  | .block body => by
    rw [Stmt.relabel, Stmt.Regular, Stmt.Regular, Stmt.regular_relabelList body]
  | .ifThen c yes => by
    rw [Stmt.relabel, Stmt.Regular, Stmt.Regular, Expr.regular_relabel, Stmt.isDeclaration_relabel,
      Stmt.regular_relabel yes]
  | .ifElse c yes no => by
    rw [Stmt.relabel, Stmt.Regular, Stmt.Regular, Expr.regular_relabel, Stmt.isDeclaration_relabel,
      Stmt.regular_relabel yes, Stmt.isDeclaration_relabel, Stmt.regular_relabel no]
  | .while c body => by
    rw [Stmt.relabel, Stmt.Regular, Stmt.Regular, Expr.regular_relabel, Stmt.isDeclaration_relabel,
      Stmt.regular_relabel body]
  | .function decl => by
    rw [Stmt.relabel, Stmt.Regular, Stmt.Regular, FunctionDecl.regular_relabel decl]
  | .return _ value => by
    rw [Stmt.relabel, Stmt.Regular, Stmt.Regular, Expr.regular_relabelOption]
  | .classDecl _ _ methods statics => by
    rw [Stmt.relabel, Stmt.Regular, Stmt.Regular, FunctionDecl.regular_relabelList methods,
      FunctionDecl.regular_relabelList statics]
    rfl

theorem Stmt.regular_relabelList : ∀ ss : List (Stmt ι),
    Stmt.RegularList (Stmt.relabelList f g ss) ↔ Stmt.RegularList ss
  | [] => Iff.rfl
  | s :: ss => by
    rw [Stmt.relabelList, Stmt.RegularList, Stmt.RegularList, Stmt.regular_relabel s,
      Stmt.regular_relabelList ss]

theorem FunctionDecl.regular_relabel : ∀ d : FunctionDecl (Stmt ι),
    FunctionDecl.Regular (FunctionDecl.relabel f g d) ↔ FunctionDecl.Regular d
  | ⟨name, params, body⟩ => by
    rw [FunctionDecl.relabel, FunctionDecl.Regular, FunctionDecl.Regular, Stmt.regular_relabelList body,
      List.forall_mem_map]
    rfl

theorem FunctionDecl.regular_relabelList : ∀ ds : List (FunctionDecl (Stmt ι)),
    FunctionDecl.RegularList (FunctionDecl.relabelList f g ds) ↔ FunctionDecl.RegularList ds
  | [] => Iff.rfl
  | d :: ds => by
    rw [FunctionDecl.relabelList, FunctionDecl.RegularList, FunctionDecl.RegularList,
      FunctionDecl.regular_relabel d, FunctionDecl.regular_relabelList ds]

end

end Relabel

/-! ### Sentences form regular trees -/

section Sentences

open Grammar

variable {ts : List Token} {t : Token}

/-- All tokens of a list are rightly spelled. -/
def AllSpelled (ts : List Token) : Prop := ∀ t ∈ ts, t.Spelled

@[simp] lemma allSpelled_cons {t : Token} : AllSpelled (t :: ts) ↔ t.Spelled ∧ AllSpelled ts :=
  List.forall_mem_cons

@[simp] lemma allSpelled_append {us : List Token} :
    AllSpelled (ts ++ us) ↔ AllSpelled ts ∧ AllSpelled us := List.forall_mem_append

lemma plain_of_spelled (hs : t.Spelled) (hk : t.kind = .identifier) : t.ident.Plain := by
  rw [Token.Spelled, hk] at hs
  exact ⟨hs nofun .thisKw, hs nofun .superKw⟩

lemma Atom.regular {e : Expr Unit} (h : Atom t e) (hs : t.Spelled) : e.Regular := by
  unfold Token.Spelled at hs
  cases h with
  | this hk | super hk =>
    rw [hk] at hs
    exact hs nofun
  | _ => trivial

lemma Selects.regular {name : Ident} {object e : Expr Unit} (h : Selects name object e)
    (ho : object.Regular) : e.Regular := by
  cases h <;> exact ho

lemma Assigns.regular {target value e : Expr Unit} (h : Assigns target value e) (ht : target.Regular)
    (hv : value.Regular) : e.Regular := by
  cases h with
  | «variable» => exact hv
  | property | superProperty => exact ⟨ht, hv⟩

lemma regularList_map {parts : List (List Token × Expr Unit)} (h : ∀ part ∈ parts, part.2.Regular) :
    Expr.RegularList (parts.map (·.2)) := by
  induction parts with
  | nil => trivial
  | cons part parts ih =>
    obtain ⟨hp, hps⟩ := List.forall_mem_cons.1 h
    exact ⟨hp, ih hps⟩

lemma Listed.spelled {α : Type} {parts : List (List Token × α)} (h : Listed parts ts)
    (hs : AllSpelled ts) : ∀ part ∈ parts, AllSpelled part.1 := by
  induction h with
  | nil => exact List.forall_mem_nil _
  | last => exact List.forall_mem_singleton.2 hs
  | cons hc _ ih =>
    obtain ⟨hpart, hs⟩ := allSpelled_append.1 hs
    exact List.forall_mem_cons.2 ⟨hpart, ih (allSpelled_cons.1 hs).2⟩

lemma Operator.regular_apply (op : Operator) (line : Nat) {left right : Expr Unit} (hl : left.Regular)
    (hr : right.Regular) : (op.apply line left right).Regular := by
  cases op <;> exact ⟨hl, hr⟩

lemma Phrase.regular {s : Stratum} {e : Expr Unit} (h : Phrase s ts e) : AllSpelled ts → e.Regular := by
  induction h with
  | ofOr _ ih | ofOperand _ ih | ofCall _ ih | ofPrimary _ ih => exact ih
  | assign _ _ _ ha iht ihv =>
    intro hs
    obtain ⟨ht, hs⟩ := allSpelled_append.1 hs
    exact ha.regular (iht ht) (ihv (allSpelled_cons.1 hs).2)
  | joined _ _ _ ihl ihr =>
    intro hs
    obtain ⟨hl, hs⟩ := allSpelled_append.1 hs
    exact Operator.regular_apply _ _ (ihl hl) (ihr (allSpelled_cons.1 hs).2)
  | led _ _ ih => exact fun hs => ih (allSpelled_cons.1 hs).2
  | call _ _ _ hlist _ _ ih ihp =>
    intro hs
    obtain ⟨hc, hs⟩ := allSpelled_append.1 hs
    obtain ⟨hargs, -⟩ := allSpelled_append.1 (allSpelled_cons.1 hs).2
    exact ⟨ih hc, regularList_map fun part hpart => ihp part hpart (hlist.spelled hargs part hpart)⟩
  | property _ _ _ hsel ih => exact fun hs => hsel.regular (ih (allSpelled_append.1 hs).1)
  | atom ha => exact fun hs => ha.regular (allSpelled_cons.1 hs).1
  | group _ _ _ ih => exact fun hs => ih (allSpelled_append.1 (allSpelled_cons.1 hs).2).1

namespace Grammar

lemma IsExpression.regular {e : Expr Unit} (h : IsExpression ts e) (hs : AllSpelled ts) : e.Regular :=
  (isExpression_iff.1 h).regular hs

lemma IsCondition.regular {e : Expr Unit} (h : IsCondition ts e) (hs : AllSpelled ts) : e.Regular := by
  cases h with
  | mk _ he _ => exact he.regular (allSpelled_append.1 (allSpelled_cons.1 hs).2).1

lemma IsOptional.regular {o : Option (Expr Unit)} (h : IsOptional ts o) (hs : AllSpelled ts) :
    Expr.RegularOption o := by
  cases h with
  | none => trivial
  | some he => exact he.regular hs

lemma IsLet.regular {s : Stmt Unit} (h : IsLet ts s) (hs : AllSpelled ts) : s.Regular := by
  cases h with
  | plain _ hn _ =>
    simp only [allSpelled_cons] at hs
    exact ⟨plain_of_spelled hs.2.1 hn, trivial⟩
  | initialized _ hn _ he _ =>
    simp only [allSpelled_cons, allSpelled_append] at hs
    exact ⟨plain_of_spelled hs.2.1 hn, he.regular hs.2.2.2.1⟩

lemma IsInitializer.regular {o : Option (Stmt Unit)} (h : IsInitializer ts o) (hs : AllSpelled ts) :
    ∀ s ∈ o, s.Regular := by
  cases h with
  | none => exact nofun
  | letVar hl =>
    rintro s ⟨⟩
    exact hl.regular hs
  | expr he _ =>
    rintro s ⟨⟩
    exact he.regular (allSpelled_append.1 hs).1

lemma IsSignature.plain_names {name : Ident} {names : List Ident} (h : IsSignature ts name names)
    (hs : AllSpelled ts) : name.Plain ∧ ∀ p ∈ names, p.Plain := by
  cases h with
  | mk hn _ hp hlist _ _ =>
    simp only [allSpelled_cons, allSpelled_append] at hs
    refine ⟨plain_of_spelled hs.1 hn, fun p hmem => ?_⟩
    obtain ⟨t, ht, rfl⟩ := List.mem_map.1 hmem
    have hspelled := hlist.spelled hs.2.2.1 ([t], t) (List.mem_map.2 ⟨t, ht, rfl⟩)
    exact plain_of_spelled (allSpelled_cons.1 hspelled).1 (hp t ht)

lemma IsHeading.plain_name {name : Ident} {parent : Option (Occurrence Unit)} (h : IsHeading ts name parent)
    (hs : AllSpelled ts) : name.Plain := by
  cases h with
  | plain hn | extending hn => exact plain_of_spelled (allSpelled_cons.1 hs).1 hn

lemma LoopTest.regular {o : Option (Expr Unit)} {e : Expr Unit} (h : LoopTest o e)
    (ho : Expr.RegularOption o) : e.Regular := by
  cases h with
  | always => trivial
  | test => exact ho

lemma LoopBody.regular {o : Option (Expr Unit)} {s body : Stmt Unit} (h : LoopBody s o body)
    (ho : Expr.RegularOption o) (hs : s.isDeclaration = false ∧ s.Regular) :
    body.isDeclaration = false ∧ body.Regular := by
  cases h with
  | plain => exact hs
  | increment => exact ⟨rfl, hs.2, ho, trivial⟩

lemma LoopFrame.regular {o : Option (Stmt Unit)} {c : Expr Unit} {body tree : Stmt Unit}
    (h : LoopFrame (.while c body) o tree) (ho : ∀ s ∈ o, s.Regular) (hc : c.Regular)
    (hb : body.isDeclaration = false ∧ body.Regular) : tree.isDeclaration = false ∧ tree.Regular := by
  cases h with
  | plain => exact ⟨rfl, hc, hb⟩
  | initialized => exact ⟨rfl, ho _ rfl, ⟨hc, hb⟩, trivial⟩

mutual

theorem IsStatement.regular : ∀ {d : Bool} {ts : List Token} {s : Stmt Unit}, IsStatement d ts s →
    AllSpelled ts → s.isDeclaration = false ∧ s.Regular
  | _, _, _, .expr he _, hs => ⟨rfl, he.regular (allSpelled_append.1 hs).1⟩
  | _, _, _, .print _ he _, hs =>
    ⟨rfl, he.regular (allSpelled_append.1 (allSpelled_cons.1 hs).2).1⟩
  | _, _, _, .return _ ho _, hs =>
    ⟨rfl, ho.regular (allSpelled_append.1 (allSpelled_cons.1 hs).2).1⟩
  | _, _, _, .block _ hss _, hs =>
    ⟨rfl, hss.regular (allSpelled_append.1 (allSpelled_cons.1 hs).2).1⟩
  | _, _, _, .ifThen _ hc hy, hs => by
    obtain ⟨hsc, hsy⟩ := allSpelled_append.1 (allSpelled_cons.1 hs).2
    exact ⟨rfl, hc.regular hsc, hy.regular hsy⟩
  | _, _, _, .ifElse _ hc hy _ hn, hs => by
    obtain ⟨hsc, hs⟩ := allSpelled_append.1 (allSpelled_cons.1 hs).2
    obtain ⟨hsy, hs⟩ := allSpelled_append.1 hs
    exact ⟨rfl, hc.regular hsc, hy.regular hsy, hn.regular (allSpelled_cons.1 hs).2⟩
  | _, _, _, .while _ hc hb, hs => by
    obtain ⟨hsc, hsb⟩ := allSpelled_append.1 (allSpelled_cons.1 hs).2
    exact ⟨rfl, hc.regular hsc, hb.regular hsb⟩
  | _, _, _, .for _ _ hi hc _ hn _ hb ht hbody hf, hs => by
    simp only [allSpelled_cons, allSpelled_append] at hs
    obtain ⟨-, -, hsi, hsc, -, hsn, -, hsb⟩ := hs
    exact hf.regular (hi.regular hsi) (ht.regular (hc.regular hsc))
      (hbody.regular (hn.regular hsn) (hb.regular hsb))

theorem IsDeclaration.regular : ∀ {d : Bool} {ts : List Token} {s : Stmt Unit}, IsDeclaration d ts s →
    AllSpelled ts → s.Regular
  | _, _, _, .statement h, hs => (h.regular hs).2
  | _, _, _, .letVar hl, hs => hl.regular hs
  | _, _, _, .constVar _ hn _ he _, hs => by
    simp only [allSpelled_cons, allSpelled_append] at hs
    exact ⟨plain_of_spelled hs.2.1 hn, he.regular hs.2.2.2.1⟩
  | _, _, _, .function _ hf, hs => hf.regular (allSpelled_cons.1 hs).2
  | _, _, _, .classDecl _ hh _ hm _, hs => by
    simp only [allSpelled_cons, allSpelled_append] at hs
    obtain ⟨hmethods, hstatics⟩ := hm.regular hs.2.2.2.1
    exact ⟨hh.plain_name hs.2.1, hmethods, hstatics⟩

/-- **Declarations of rightly spelled tokens are regular.** -/
theorem AreDeclarations.regular : ∀ {ts : List Token} {ss : List (Stmt Unit)}, AreDeclarations ts ss →
    AllSpelled ts → Stmt.RegularList ss
  | _, _, .nil, _ => trivial
  | _, _, .cons h hss, hs => by
    obtain ⟨hs, hs'⟩ := allSpelled_append.1 hs
    exact ⟨h.regular hs, hss.regular hs'⟩

theorem IsFunction.regular : ∀ {ts : List Token} {f : Method}, IsFunction ts f → AllSpelled ts →
    FunctionDecl.Regular f
  | _, _, .mk hsig _ hb _, hs => by
    simp only [allSpelled_cons, allSpelled_append] at hs
    obtain ⟨hn, hp⟩ := hsig.plain_names hs.1
    exact ⟨hn, hp, hb.regular hs.2.2.1⟩

theorem AreMembers.regular : ∀ {ts : List Token} {methods statics : List Method},
    AreMembers ts methods statics → AllSpelled ts →
      FunctionDecl.RegularList methods ∧ FunctionDecl.RegularList statics
  | _, _, _, .nil, _ => ⟨trivial, trivial⟩
  | _, _, _, .method hf hm, hs => by
    obtain ⟨hsf, hsm⟩ := allSpelled_append.1 hs
    obtain ⟨hmethods, hstatics⟩ := hm.regular hsm
    exact ⟨⟨hf.regular hsf, hmethods⟩, hstatics⟩
  | _, _, _, .static _ hf hm, hs => by
    obtain ⟨hsf, hsm⟩ := allSpelled_append.1 (allSpelled_cons.1 hs).2
    obtain ⟨hmethods, hstatics⟩ := hm.regular hsm
    exact ⟨hmethods, hf.regular hsf, hstatics⟩

end

end Grammar

end Sentences

end ScriptLang

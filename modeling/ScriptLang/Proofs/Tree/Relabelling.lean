import Mathlib.Logic.Basic
import ScriptLang.Tree.Numbering
import ScriptLang.Tree.Occurrences

/-!
# Relabelling trees

The same tree on other lines, with other identities of the uses of names.  Numbering is undone by forgetting
the numbers, and it gives consecutive numbers in the order of the tree.

* `Stmt.relabel` — a statement with every line and every identity replaced;
* `NumberedAs` — what numbering makes of a tree;
* `Stmt.number_spec`, `Stmt.numberList_spec` — the theorem for statements.
-/

namespace ScriptLang

section Relabel

variable {ι κ : Type} (f : Nat → Nat) (g : ι → κ)

/-- The same name on another line. -/
def Ident.relabel (i : Ident) : Ident := { i with line := f i.line }

/-- The same use of a name on another line, with another identity. -/
def Occurrence.relabel (o : Occurrence ι) : Occurrence κ := ⟨o.toIdent.relabel f, g o.id⟩

mutual

/-- The same expression on other lines, with other identities. -/
def Expr.relabel : Expr ι → Expr κ
  | .literal value => .literal value
  | .name kind use => .name kind (use.relabel f g)
  | .assign target value => .assign (target.relabel f g) value.relabel
  | .unary op line operand => .unary op (f line) operand.relabel
  | .binary op line left right => .binary op (f line) left.relabel right.relabel
  | .logical op line left right => .logical op (f line) left.relabel right.relabel
  | .group inner => .group inner.relabel
  | .call line callee args => .call (f line) callee.relabel (Expr.relabelList args)
  | .get object property => .get object.relabel (property.relabel f)
  | .superGet keyword property => .superGet (keyword.relabel f g) (property.relabel f)
  | .set object property value => .set object.relabel (property.relabel f) value.relabel

/-- Several expressions on other lines, with other identities. -/
def Expr.relabelList : List (Expr ι) → List (Expr κ)
  | [] => []
  | e :: es => e.relabel :: Expr.relabelList es

end

mutual

/-- The same statement on other lines, with other identities. -/
def Stmt.relabel : Stmt ι → Stmt κ
  | .expr e => .expr (e.relabel f g)
  | .print e => .print (e.relabel f g)
  | .letVar name value => .letVar (name.relabel f) (value.map fun e => e.relabel f g)
  | .constVar name value => .constVar (name.relabel f) (value.relabel f g)
  | .block body => .block (Stmt.relabelList body)
  | .ifThen condition yes => .ifThen (condition.relabel f g) yes.relabel
  | .ifElse condition yes no => .ifElse (condition.relabel f g) yes.relabel no.relabel
  | .while condition body => .while (condition.relabel f g) body.relabel
  | .function decl => .function (FunctionDecl.relabel decl)
  | .return line value => .return (f line) (value.map fun e => e.relabel f g)
  | .classDecl name parent methods statics =>
    .classDecl (name.relabel f) (parent.map fun use => use.relabel f g)
      (FunctionDecl.relabelList methods) (FunctionDecl.relabelList statics)

/-- Several statements on other lines, with other identities. -/
def Stmt.relabelList : List (Stmt ι) → List (Stmt κ)
  | [] => []
  | s :: ss => s.relabel :: Stmt.relabelList ss

/-- The same function on other lines, with other identities. -/
def FunctionDecl.relabel : FunctionDecl (Stmt ι) → FunctionDecl (Stmt κ)
  | ⟨name, params, body⟩ => ⟨name.relabel f, params.map (Ident.relabel f), Stmt.relabelList body⟩

/-- Several functions on other lines, with other identities. -/
def FunctionDecl.relabelList : List (FunctionDecl (Stmt ι)) → List (FunctionDecl (Stmt κ))
  | [] => []
  | d :: ds => FunctionDecl.relabel d :: FunctionDecl.relabelList ds

end

lemma FunctionDecl.relabel_name (d : FunctionDecl (Stmt ι)) :
    (FunctionDecl.relabel f g d).name = d.name.relabel f := by
  cases d
  rfl

end Relabel

/-- The numbers of uses of names. -/
def ids (os : List (Occurrence OccurrenceId)) : List OccurrenceId := os.map (·.id)

@[simp] lemma ids_nil : ids [] = [] := rfl

@[simp] lemma ids_cons (o : Occurrence OccurrenceId) (os : List (Occurrence OccurrenceId)) :
    ids (o :: os) = o.id :: ids os := rfl

@[simp] lemma ids_append (os os' : List (Occurrence OccurrenceId)) :
    ids (os ++ os') = ids os ++ ids os' := List.map_append

/-! ### Numbering -/

/-- A tree that is forgotten to give back the first argument, and whose uses of names have consecutive
numbers from `n` up to the next free one. -/
structure NumberedAs {α β : Type} (forget : β → α) (occurrences : β → List (Occurrence OccurrenceId))
    (a : α) (n : OccurrenceId) (r : β × OccurrenceId) : Prop where
  forget : forget r.1 = a
  ids : ids (occurrences r.1) = List.range' n (occurrences r.1).length
  next : r.2 = n + (occurrences r.1).length

/-- The uses of names of two parts, one numbered behind the other. -/
lemma ids_parts {os os' : List (Occurrence OccurrenceId)} {n m m' : OccurrenceId}
    (h : ids os = List.range' n os.length) (hm : m = n + os.length)
    (h' : ids os' = List.range' m os'.length) (hm' : m' = m + os'.length) :
    ids (os ++ os') = List.range' n (os ++ os').length ∧ m' = n + (os ++ os').length := by
  subst hm hm'
  rw [ids_append, List.length_append, h, h', Nat.add_assoc]
  exact ⟨List.range'_append_1 .., rfl⟩

mutual

theorem Expr.number_spec (n : OccurrenceId) : ∀ e : Expr Unit,
    NumberedAs (Expr.relabel id fun _ => ()) Expr.occurrences e n (e.number n)
  | .literal value => ⟨rfl, rfl, rfl⟩
  | .name kind use => ⟨rfl, rfl, rfl⟩
  | .superGet keyword property => ⟨rfl, rfl, rfl⟩
  | .assign target value => by
    obtain ⟨hf, hi, hn⟩ := Expr.number_spec n value
    obtain ⟨hi', hn'⟩ := @ids_parts _ [⟨target.toIdent, (value.number n).2⟩] _ _ _ hi hn rfl rfl
    exact ⟨congrArg (Expr.assign _) hf, hi', hn'⟩
  | .unary op line e => by
    obtain ⟨hf, hi, hn⟩ := Expr.number_spec n e
    exact ⟨congrArg (Expr.unary op line) hf, hi, hn⟩
  | .binary op line e e' => by
    obtain ⟨hf, hi, hn⟩ := Expr.number_spec n e
    obtain ⟨hf', hi', hn'⟩ := Expr.number_spec (e.number n).2 e'
    obtain ⟨hi'', hn''⟩ := ids_parts hi hn hi' hn'
    exact ⟨congrArg₂ (Expr.binary op line) hf hf', hi'', hn''⟩
  | .logical op line e e' => by
    obtain ⟨hf, hi, hn⟩ := Expr.number_spec n e
    obtain ⟨hf', hi', hn'⟩ := Expr.number_spec (e.number n).2 e'
    obtain ⟨hi'', hn''⟩ := ids_parts hi hn hi' hn'
    exact ⟨congrArg₂ (Expr.logical op line) hf hf', hi'', hn''⟩
  | .group e => by
    obtain ⟨hf, hi, hn⟩ := Expr.number_spec n e
    exact ⟨congrArg Expr.group hf, hi, hn⟩
  | .get e property => by
    obtain ⟨hf, hi, hn⟩ := Expr.number_spec n e
    exact ⟨congrArg (Expr.get · property) hf, hi, hn⟩
  | .set e property e' => by
    obtain ⟨hf, hi, hn⟩ := Expr.number_spec n e
    obtain ⟨hf', hi', hn'⟩ := Expr.number_spec (e.number n).2 e'
    obtain ⟨hi'', hn''⟩ := ids_parts hi hn hi' hn'
    exact ⟨congrArg₂ (Expr.set · property ·) hf hf', hi'', hn''⟩
  | .call line e es => by
    obtain ⟨hf, hi, hn⟩ := Expr.number_spec n e
    obtain ⟨hf', hi', hn'⟩ := Expr.numberList_spec (e.number n).2 es
    obtain ⟨hi'', hn''⟩ := ids_parts hi hn hi' hn'
    exact ⟨congrArg₂ (Expr.call line) hf hf', hi'', hn''⟩

theorem Expr.numberList_spec (n : OccurrenceId) : ∀ es : List (Expr Unit),
    NumberedAs (Expr.relabelList id fun _ => ()) Expr.occurrencesList es n (Expr.numberList es n)
  | [] => ⟨rfl, rfl, rfl⟩
  | e :: es => by
    obtain ⟨hf, hi, hn⟩ := Expr.number_spec n e
    obtain ⟨hf', hi', hn'⟩ := Expr.numberList_spec (e.number n).2 es
    obtain ⟨hi'', hn''⟩ := ids_parts hi hn hi' hn'
    exact ⟨congrArg₂ List.cons hf hf', hi'', hn''⟩

end

lemma Expr.numberOption_spec (n : OccurrenceId) (e : Option (Expr Unit)) :
    NumberedAs (Option.map (Expr.relabel id fun _ => ())) Expr.occurrencesOption e n
      (Expr.numberOption e n) := by
  cases e with
  | none => exact ⟨rfl, rfl, rfl⟩
  | some e =>
    obtain ⟨hf, hi, hn⟩ := Expr.number_spec n e
    exact ⟨congrArg some hf, hi, hn⟩

lemma occurrence_numberOption_spec (n : OccurrenceId) (use : Option (Occurrence Unit)) :
    NumberedAs (Option.map (Occurrence.relabel id fun _ => ())) Option.toList use n
      (Occurrence.numberOption use n) := by
  cases use <;> exact ⟨rfl, rfl, rfl⟩

mutual

theorem Stmt.number_spec (n : OccurrenceId) : ∀ s : Stmt Unit,
    NumberedAs (Stmt.relabel id fun _ => ()) Stmt.occurrences s n (s.number n)
  | .expr e => by
    obtain ⟨hf, hi, hn⟩ := Expr.number_spec n e
    exact ⟨congrArg Stmt.expr hf, hi, hn⟩
  | .print e => by
    obtain ⟨hf, hi, hn⟩ := Expr.number_spec n e
    exact ⟨congrArg Stmt.print hf, hi, hn⟩
  | .letVar name value => by
    obtain ⟨hf, hi, hn⟩ := Expr.numberOption_spec n value
    exact ⟨congrArg (Stmt.letVar name) hf, hi, hn⟩
  | .constVar name value => by
    obtain ⟨hf, hi, hn⟩ := Expr.number_spec n value
    exact ⟨congrArg (Stmt.constVar name) hf, hi, hn⟩
  | .block body => by
    obtain ⟨hf, hi, hn⟩ := Stmt.numberList_spec n body
    exact ⟨congrArg Stmt.block hf, hi, hn⟩
  | .ifThen c yes => by
    obtain ⟨hf, hi, hn⟩ := Expr.number_spec n c
    obtain ⟨hf', hi', hn'⟩ := Stmt.number_spec (c.number n).2 yes
    obtain ⟨hi'', hn''⟩ := ids_parts hi hn hi' hn'
    exact ⟨congrArg₂ Stmt.ifThen hf hf', hi'', hn''⟩
  | .ifElse c yes no => by
    obtain ⟨hf, hi, hn⟩ := Expr.number_spec n c
    obtain ⟨hf', hi', hn'⟩ := Stmt.number_spec (c.number n).2 yes
    obtain ⟨hi2, hn2⟩ := ids_parts hi hn hi' hn'
    obtain ⟨hf3, hi3, hn3⟩ := Stmt.number_spec (yes.number (c.number n).2).2 no
    obtain ⟨hi4, hn4⟩ := ids_parts hi2 hn2 hi3 hn3
    exact ⟨congr (congrArg₂ Stmt.ifElse hf hf') hf3, hi4, hn4⟩
  | .while c body => by
    obtain ⟨hf, hi, hn⟩ := Expr.number_spec n c
    obtain ⟨hf', hi', hn'⟩ := Stmt.number_spec (c.number n).2 body
    obtain ⟨hi'', hn''⟩ := ids_parts hi hn hi' hn'
    exact ⟨congrArg₂ Stmt.while hf hf', hi'', hn''⟩
  | .function decl => by
    obtain ⟨hf, hi, hn⟩ := FunctionDecl.number_spec n decl
    exact ⟨congrArg Stmt.function hf, hi, hn⟩
  | .return line value => by
    obtain ⟨hf, hi, hn⟩ := Expr.numberOption_spec n value
    exact ⟨congrArg (Stmt.return line) hf, hi, hn⟩
  | .classDecl name parent methods statics => by
    obtain ⟨hf, hi, hn⟩ := occurrence_numberOption_spec n parent
    obtain ⟨hf', hi', hn'⟩ := FunctionDecl.numberList_spec (Occurrence.numberOption parent n).2 methods
    obtain ⟨hi2, hn2⟩ := ids_parts hi hn hi' hn'
    obtain ⟨hf3, hi3, hn3⟩ := FunctionDecl.numberList_spec
      (FunctionDecl.numberList methods (Occurrence.numberOption parent n).2).2 statics
    obtain ⟨hi4, hn4⟩ := ids_parts hi2 hn2 hi3 hn3
    exact ⟨congr (congrArg₂ (Stmt.classDecl name) hf hf') hf3, hi4, hn4⟩

theorem Stmt.numberList_spec (n : OccurrenceId) : ∀ ss : List (Stmt Unit),
    NumberedAs (Stmt.relabelList id fun _ => ()) Stmt.occurrencesList ss n (Stmt.numberList ss n)
  | [] => ⟨rfl, rfl, rfl⟩
  | s :: ss => by
    obtain ⟨hf, hi, hn⟩ := Stmt.number_spec n s
    obtain ⟨hf', hi', hn'⟩ := Stmt.numberList_spec (s.number n).2 ss
    obtain ⟨hi'', hn''⟩ := ids_parts hi hn hi' hn'
    exact ⟨congrArg₂ List.cons hf hf', hi'', hn''⟩

theorem FunctionDecl.number_spec (n : OccurrenceId) : ∀ d : FunctionDecl (Stmt Unit),
    NumberedAs (FunctionDecl.relabel id fun _ => ()) FunctionDecl.occurrences d n (FunctionDecl.number d n)
  | ⟨name, params, body⟩ => by
    obtain ⟨hf, hi, hn⟩ := Stmt.numberList_spec n body
    exact ⟨congrArg₂ (FunctionDecl.mk name) (List.map_id params) hf, hi, hn⟩

theorem FunctionDecl.numberList_spec (n : OccurrenceId) : ∀ ds : List (FunctionDecl (Stmt Unit)),
    NumberedAs (FunctionDecl.relabelList id fun _ => ()) FunctionDecl.occurrencesList ds n
      (FunctionDecl.numberList ds n)
  | [] => ⟨rfl, rfl, rfl⟩
  | d :: ds => by
    obtain ⟨hf, hi, hn⟩ := FunctionDecl.number_spec n d
    obtain ⟨hf', hi', hn'⟩ := FunctionDecl.numberList_spec (FunctionDecl.number d n).2 ds
    obtain ⟨hi'', hn''⟩ := ids_parts hi hn hi' hn'
    exact ⟨congrArg₂ List.cons hf hf', hi'', hn''⟩

end

end ScriptLang

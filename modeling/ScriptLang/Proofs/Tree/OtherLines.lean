import ScriptLang.Proofs.Tree.Relabelling
import ScriptLang.Tree.Printer

/-!
# Trees on other lines, with other numbers

Numbering does not look at lines, it gives the same tree from whatever number it starts, and it numbers a list of
statements part by part.

* `Stmt.relabel_fixed`, `Stmt.relabelList_self` — a tree with its own lines and numbers is the same tree;
* `Stmt.numberList_shift` — numbering a tree on other lines from a later number on;
* `Stmt.numberList_append` — numbering statements behind others;
* `Stmt.text_relabel` — the text of a tree tells neither lines nor numbers.
-/

namespace ScriptLang

variable {ι : Type} (f : Nat → Nat)

/-! ### The same lines and numbers -/

@[simp] lemma Ident.relabel_self (i : Ident) : i.relabel id = i := rfl

section Fixed

variable {g : ι → ι} {os os' : List (Occurrence ι)}

/-- The uses of names keep their identities. -/
def Fixes (g : ι → ι) (os : List (Occurrence ι)) : Prop := ∀ o ∈ os, g o.id = o.id

lemma fixes_append : Fixes g (os ++ os') ↔ Fixes g os ∧ Fixes g os' := List.forall_mem_append

lemma occurrence_relabel_fixed {o : Occurrence ι} (h : g o.id = o.id) : o.relabel id g = o := by
  obtain ⟨name, i⟩ := o
  exact congrArg (Occurrence.mk name) h

mutual

theorem Expr.relabel_fixed : ∀ e : Expr ι, Fixes g e.occurrences → e.relabel id g = e
  | .literal _, _ => rfl
  | .name kind use, h => congrArg (Expr.name kind) (occurrence_relabel_fixed (h use List.mem_cons_self))
  | .superGet use property, h =>
    congrArg (Expr.superGet · property) (occurrence_relabel_fixed (h use List.mem_cons_self))
  | .assign target e, h => by
    obtain ⟨he, ht⟩ := fixes_append.1 h
    rw [Expr.relabel, e.relabel_fixed he, occurrence_relabel_fixed (ht target List.mem_cons_self)]
  | .unary _ _ e, h | .group e, h | .get e _, h => by
    simp [Expr.relabel, e.relabel_fixed h]
  | .binary _ _ e e', h | .logical _ _ e e', h | .set e _ e', h => by
    obtain ⟨he, he'⟩ := fixes_append.1 h
    simp [Expr.relabel, e.relabel_fixed he, e'.relabel_fixed he']
  | .call _ e es, h => by
    obtain ⟨he, hes⟩ := fixes_append.1 h
    simp [Expr.relabel, e.relabel_fixed he, Expr.relabelList_fixed es hes]

theorem Expr.relabelList_fixed : ∀ es : List (Expr ι), Fixes g (Expr.occurrencesList es) →
    Expr.relabelList id g es = es
  | [], _ => rfl
  | e :: es, h => by
    obtain ⟨he, hes⟩ := fixes_append.1 h
    simp [Expr.relabelList, e.relabel_fixed he, Expr.relabelList_fixed es hes]

end

lemma Expr.relabelOption_fixed (e : Option (Expr ι)) (h : Fixes g (Expr.occurrencesOption e)) :
    e.map (fun e => e.relabel id g) = e := by
  cases e with
  | none => rfl
  | some e => exact congrArg some (e.relabel_fixed h)

lemma occurrence_relabelOption_fixed (use : Option (Occurrence ι)) (h : Fixes g use.toList) :
    use.map (fun use => use.relabel id g) = use := by
  cases use with
  | none => rfl
  | some use => exact congrArg some (occurrence_relabel_fixed (h use List.mem_cons_self))

mutual

theorem Stmt.relabel_fixed : ∀ s : Stmt ι, Fixes g s.occurrences → s.relabel id g = s
  | .expr e, h | .print e, h | .constVar _ e, h => by simp [Stmt.relabel, e.relabel_fixed h]
  | .letVar _ v, h | .return _ v, h => by simp [Stmt.relabel, Expr.relabelOption_fixed v h]
  | .block ss, h => by simp [Stmt.relabel, Stmt.relabelList_fixed ss h]
  | .ifThen c s, h | .while c s, h => by
    obtain ⟨hc, hs⟩ := fixes_append.1 h
    simp [Stmt.relabel, c.relabel_fixed hc, s.relabel_fixed hs]
  | .ifElse c s s', h => by
    obtain ⟨h, hs'⟩ := fixes_append.1 h
    obtain ⟨hc, hs⟩ := fixes_append.1 h
    simp [Stmt.relabel, c.relabel_fixed hc, s.relabel_fixed hs, s'.relabel_fixed hs']
  | .function d, h => by simp [Stmt.relabel, FunctionDecl.relabel_fixed d h]
  | .classDecl _ p ms ss, h => by
    obtain ⟨h, hss⟩ := fixes_append.1 h
    obtain ⟨hp, hms⟩ := fixes_append.1 h
    simp [Stmt.relabel, occurrence_relabelOption_fixed p hp, FunctionDecl.relabelList_fixed ms hms,
      FunctionDecl.relabelList_fixed ss hss]

theorem Stmt.relabelList_fixed : ∀ ss : List (Stmt ι), Fixes g (Stmt.occurrencesList ss) →
    Stmt.relabelList id g ss = ss
  | [], _ => rfl
  | s :: ss, h => by
    obtain ⟨hs, hss⟩ := fixes_append.1 h
    simp [Stmt.relabelList, s.relabel_fixed hs, Stmt.relabelList_fixed ss hss]

theorem FunctionDecl.relabel_fixed : ∀ d : FunctionDecl (Stmt ι), Fixes g (FunctionDecl.occurrences d) →
    FunctionDecl.relabel id g d = d
  | ⟨_, ps, body⟩, h => by
    have hps : ps.map (Ident.relabel id) = ps := List.map_id ps
    simp [FunctionDecl.relabel, hps, Stmt.relabelList_fixed body h]

theorem FunctionDecl.relabelList_fixed : ∀ ds : List (FunctionDecl (Stmt ι)),
    Fixes g (FunctionDecl.occurrencesList ds) → FunctionDecl.relabelList id g ds = ds
  | [], _ => rfl
  | d :: ds, h => by
    obtain ⟨hd, hds⟩ := fixes_append.1 h
    simp [FunctionDecl.relabelList, FunctionDecl.relabel_fixed d hd, FunctionDecl.relabelList_fixed ds hds]

end

end Fixed

lemma Stmt.relabelList_self (ss : List (Stmt ι)) : Stmt.relabelList id id ss = ss :=
  Stmt.relabelList_fixed ss fun _ _ => rfl

/-! ### Numbering -/

variable {α β : Type} {n m k : Nat} {g : OccurrenceId → OccurrenceId}

lemma numbered_bind {x : Numbered α} {h : α → Numbered β} : (x >>= h) n = h (x n).1 (x n).2 := rfl

lemma numbered_pure {a : α} : (pure a : Numbered α) n = (a, n) := rfl

/-- From a number on, all numbers are larger by the same amount. -/
def ShiftsFrom (n k : Nat) (g : OccurrenceId → OccurrenceId) : Prop := ∀ i ≥ n, g i = i + k

lemma ShiftsFrom.behind {count : Nat} (h : ShiftsFrom n k g) (hm : m = n + count) : ShiftsFrom m k g :=
  fun i hi => h i (Nat.le_trans (Nat.le.intro hm.symm) hi)

lemma occurrence_number_shift (h : ShiftsFrom n k g) (use : Occurrence Unit) :
    (use.relabel f id).number (n + k) = ((use.number n).1.relabel f g, (use.number n).2 + k) :=
  Prod.ext (congrArg (Occurrence.mk _) (h n (Nat.le_refl n)).symm) (Nat.add_right_comm n k 1)

mutual

theorem Expr.number_shift {n : OccurrenceId} (h : ShiftsFrom n k g) : ∀ e : Expr Unit,
    (e.relabel f id).number (n + k) = ((e.number n).1.relabel f g, (e.number n).2 + k)
  | .literal _ => rfl
  | .name _ use | .superGet use _ => by
    simp only [Expr.relabel, Expr.number, numbered_bind, numbered_pure, occurrence_number_shift f h]
  | .assign target e => by
    have ht := h.behind (e.number_spec n).next
    simp only [Expr.relabel, Expr.number, numbered_bind, numbered_pure, e.number_shift h,
      occurrence_number_shift f ht]
  | .unary _ _ e | .group e | .get e _ => by
    simp only [Expr.relabel, Expr.number, numbered_bind, numbered_pure, e.number_shift h]
  | .binary _ _ e e' | .logical _ _ e e' | .set e _ e' => by
    have h' := h.behind (e.number_spec n).next
    simp only [Expr.relabel, Expr.number, numbered_bind, numbered_pure, e.number_shift h, e'.number_shift h']
  | .call _ e es => by
    have h' := h.behind (e.number_spec n).next
    simp only [Expr.relabel, Expr.number, numbered_bind, numbered_pure, e.number_shift h,
      Expr.numberList_shift h' es]

theorem Expr.numberList_shift {n : OccurrenceId} (h : ShiftsFrom n k g) : ∀ es : List (Expr Unit),
    Expr.numberList (Expr.relabelList f id es) (n + k) =
      (Expr.relabelList f g (Expr.numberList es n).1, (Expr.numberList es n).2 + k)
  | [] => rfl
  | e :: es => by
    have h' := h.behind (e.number_spec n).next
    simp only [Expr.relabelList, Expr.numberList, numbered_bind, numbered_pure, e.number_shift h,
      Expr.numberList_shift h' es]

end

lemma Expr.numberOption_shift (h : ShiftsFrom n k g) (e : Option (Expr Unit)) :
    Expr.numberOption (e.map fun e => e.relabel f id) (n + k) =
      ((Expr.numberOption e n).1.map fun e => e.relabel f g, (Expr.numberOption e n).2 + k) := by
  cases e with
  | none => rfl
  | some e => simp only [Option.map_some, Expr.numberOption, numbered_bind, numbered_pure, e.number_shift f h]

lemma occurrence_numberOption_shift (h : ShiftsFrom n k g) (use : Option (Occurrence Unit)) :
    Occurrence.numberOption (use.map fun use => use.relabel f id) (n + k) =
      ((Occurrence.numberOption use n).1.map fun use => use.relabel f g,
        (Occurrence.numberOption use n).2 + k) := by
  cases use with
  | none => rfl
  | some use =>
    simp only [Option.map_some, Occurrence.numberOption, numbered_bind, numbered_pure,
      occurrence_number_shift f h]

mutual

theorem Stmt.number_shift {n : OccurrenceId} (h : ShiftsFrom n k g) : ∀ s : Stmt Unit,
    (s.relabel f id).number (n + k) = ((s.number n).1.relabel f g, (s.number n).2 + k)
  | .expr e | .print e | .constVar _ e => by
    simp only [Stmt.relabel, Stmt.number, numbered_bind, numbered_pure, e.number_shift f h]
  | .letVar _ v | .return _ v => by
    simp only [Stmt.relabel, Stmt.number, numbered_bind, numbered_pure, Expr.numberOption_shift f h v]
  | .block ss => by
    simp only [Stmt.relabel, Stmt.number, numbered_bind, numbered_pure, Stmt.numberList_shift h ss]
  | .ifThen c s | .while c s => by
    have h' := h.behind (c.number_spec n).next
    simp only [Stmt.relabel, Stmt.number, numbered_bind, numbered_pure, c.number_shift f h, s.number_shift h']
  | .ifElse c s s' => by
    have h' := h.behind (c.number_spec n).next
    have h'' := h'.behind (s.number_spec (c.number n).2).next
    simp only [Stmt.relabel, Stmt.number, numbered_bind, numbered_pure, c.number_shift f h, s.number_shift h',
      s'.number_shift h'']
  | .function d => by
    simp only [Stmt.relabel, Stmt.number, numbered_bind, numbered_pure, FunctionDecl.number_shift h d]
  | .classDecl _ p ms ss => by
    have h' := h.behind (occurrence_numberOption_spec n p).next
    have h'' := h'.behind (FunctionDecl.numberList_spec _ ms).next
    simp only [Stmt.relabel, Stmt.number, numbered_bind, numbered_pure, occurrence_numberOption_shift f h p,
      FunctionDecl.numberList_shift h' ms, FunctionDecl.numberList_shift h'' ss]

theorem Stmt.numberList_shift {n : OccurrenceId} (h : ShiftsFrom n k g) : ∀ ss : List (Stmt Unit),
    Stmt.numberList (Stmt.relabelList f id ss) (n + k) =
      (Stmt.relabelList f g (Stmt.numberList ss n).1, (Stmt.numberList ss n).2 + k)
  | [] => rfl
  | s :: ss => by
    have h' := h.behind (s.number_spec n).next
    simp only [Stmt.relabelList, Stmt.numberList, numbered_bind, numbered_pure, s.number_shift h,
      Stmt.numberList_shift h' ss]

theorem FunctionDecl.number_shift {n : OccurrenceId} (h : ShiftsFrom n k g) : ∀ d : FunctionDecl (Stmt Unit),
    FunctionDecl.number (FunctionDecl.relabel f id d) (n + k) =
      (FunctionDecl.relabel f g (FunctionDecl.number d n).1, (FunctionDecl.number d n).2 + k)
  | ⟨_, ps, body⟩ => by
    simp only [FunctionDecl.relabel, FunctionDecl.number, numbered_bind, numbered_pure,
      Stmt.numberList_shift h body]

theorem FunctionDecl.numberList_shift {n : OccurrenceId} (h : ShiftsFrom n k g) :
    ∀ ds : List (FunctionDecl (Stmt Unit)),
      FunctionDecl.numberList (FunctionDecl.relabelList f id ds) (n + k) =
        (FunctionDecl.relabelList f g (FunctionDecl.numberList ds n).1, (FunctionDecl.numberList ds n).2 + k)
  | [] => rfl
  | d :: ds => by
    have h' := h.behind (FunctionDecl.number_spec n d).next
    simp only [FunctionDecl.relabelList, FunctionDecl.numberList, numbered_bind, numbered_pure,
      FunctionDecl.number_shift h d, FunctionDecl.numberList_shift h' ds]

end

/-- Numbering a tree on other lines. -/
lemma Stmt.numberList_relabel (n : OccurrenceId) (ss : List (Stmt Unit)) :
    Stmt.numberList (Stmt.relabelList f id ss) n =
      (Stmt.relabelList f id (Stmt.numberList ss n).1, (Stmt.numberList ss n).2) :=
  Stmt.numberList_shift f (k := 0) (fun _ _ => rfl) ss

/-- Numbering a tree from a later number on. -/
lemma Stmt.numberList_add (h : ShiftsFrom n k g) (ss : List (Stmt Unit)) :
    Stmt.numberList ss (n + k) =
      (Stmt.relabelList id g (Stmt.numberList ss n).1, (Stmt.numberList ss n).2 + k) := by
  rw [← Stmt.numberList_shift id h ss, Stmt.relabelList_self]

lemma Stmt.numberList_append (n : OccurrenceId) : ∀ ss ss' : List (Stmt Unit),
    Stmt.numberList (ss ++ ss') n =
      ((Stmt.numberList ss n).1 ++ (Stmt.numberList ss' (Stmt.numberList ss n).2).1,
        (Stmt.numberList ss' (Stmt.numberList ss n).2).2)
  | [], _ => rfl
  | s :: ss, ss' => by
    simp only [List.cons_append, Stmt.numberList, numbered_bind, numbered_pure,
      Stmt.numberList_append _ ss ss']

/-! ### Texts -/

section Text

variable {κ : Type} (g : ι → κ)

lemma texts_relabel (ps : List Ident) : (ps.map (Ident.relabel f)).map (·.text) = ps.map (·.text) := by
  rw [List.map_map]
  rfl

mutual

theorem Expr.text_relabel : ∀ e : Expr ι, (e.relabel f g).text = e.text
  | .literal _ | .name _ _ | .superGet _ _ => rfl
  | .assign _ e | .unary _ _ e | .group e | .get e _ => by
    simp only [Expr.relabel, Expr.text, e.text_relabel, Occurrence.relabel, Ident.relabel]
  | .binary _ _ e e' | .logical _ _ e e' | .set e _ e' => by
    simp only [Expr.relabel, Expr.text, e.text_relabel, e'.text_relabel, Ident.relabel]
  | .call _ e es => by simp only [Expr.relabel, Expr.text, e.text_relabel, Expr.texts_relabelList es]

theorem Expr.texts_relabelList : ∀ es : List (Expr ι), Expr.texts (Expr.relabelList f g es) = Expr.texts es
  | [] => rfl
  | e :: es => by simp only [Expr.relabelList, Expr.texts, e.text_relabel, Expr.texts_relabelList es]

end

mutual

theorem Stmt.text_relabel : ∀ s : Stmt ι, (s.relabel f g).text = s.text
  | .expr e | .print e | .constVar _ e => by
    simp only [Stmt.relabel, Stmt.text, Expr.text_relabel f g e, Ident.relabel]
  | .letVar _ none | .return _ none => rfl
  | .letVar _ (some e) | .return _ (some e) => by
    simp only [Stmt.relabel, Stmt.text, Option.map_some, Expr.text_relabel f g e, Ident.relabel]
  | .block ss => by simp only [Stmt.relabel, Stmt.text, Stmt.lines_relabelList ss]
  | .ifThen c s | .while c s => by
    simp only [Stmt.relabel, Stmt.text, Expr.text_relabel f g c, s.text_relabel]
  | .ifElse c s s' => by
    simp only [Stmt.relabel, Stmt.text, Expr.text_relabel f g c, s.text_relabel, s'.text_relabel]
  | .function d => by simp only [Stmt.relabel, Stmt.text, FunctionDecl.text_relabel d]
  | .classDecl _ none ms ss | .classDecl _ (some _) ms ss => by
    simp only [Stmt.relabel, Stmt.text, Option.map_none, Option.map_some, Occurrence.relabel, Ident.relabel,
      FunctionDecl.lines_relabelList _ ms, FunctionDecl.lines_relabelList _ ss]

theorem Stmt.lines_relabelList : ∀ ss : List (Stmt ι), Stmt.lines (Stmt.relabelList f g ss) = Stmt.lines ss
  | [] => rfl
  | s :: ss => by simp only [Stmt.relabelList, Stmt.lines, s.text_relabel, Stmt.lines_relabelList ss]

theorem FunctionDecl.text_relabel : ∀ d : FunctionDecl (Stmt ι),
    FunctionDecl.text (FunctionDecl.relabel f g d) = FunctionDecl.text d
  | ⟨_, ps, body⟩ => by
    simp only [FunctionDecl.relabel, FunctionDecl.text, texts_relabel f ps, Stmt.lines_relabelList body,
      Ident.relabel]

theorem FunctionDecl.lines_relabelList (word : String) : ∀ ds : List (FunctionDecl (Stmt ι)),
    FunctionDecl.lines word (FunctionDecl.relabelList f g ds) = FunctionDecl.lines word ds
  | [] => rfl
  | d :: ds => by
    simp only [FunctionDecl.relabelList, FunctionDecl.lines, FunctionDecl.text_relabel d,
      FunctionDecl.lines_relabelList word ds]

end

end Text

end ScriptLang

import ScriptLang.Proofs.Tree.Relabelling

/-!
# Trees with other numbers

A tree may have any numbers.  If they are forgotten, it can be numbered anew; and what sends the new numbers to the old
ones gives the tree back.

* `Sends` — the new numbers are sent to the old ones;
* `Restored` — what comes of a tree that is numbered anew, closed under putting parts together;
* `Stmt.numberList_restored` — the theorem for the statements of a program.
-/

namespace ScriptLang

variable {g : OccurrenceId → OccurrenceId} {n : OccurrenceId} {os os' : List (Occurrence OccurrenceId)}

/-- The numbers that the uses get when they are numbered from `n` on are sent to those that they have. -/
def Sends (g : OccurrenceId → OccurrenceId) (n : OccurrenceId) (os : List (Occurrence OccurrenceId)) : Prop :=
  (List.range' n os.length).map g = ids os

lemma sends_append : Sends g n (os ++ os') ↔ Sends g n os ∧ Sends g (n + os.length) os' := by
  unfold Sends
  rw [List.length_append, ← List.range'_append_1, List.map_append, ids_append]
  constructor
  · exact fun h => List.append_inj h (by simp [ids])
  · rintro ⟨h, h'⟩
    rw [h, h']

/-- Behind the numbers of a tree numbered anew are as many as it has uses.  If they are sent to the numbers that it has,
it is given back. -/
structure Restored {α : Type} (g : OccurrenceId → OccurrenceId) (n : OccurrenceId) (back : α → α)
    (os : List (Occurrence OccurrenceId)) (a : α) (r : α × OccurrenceId) : Prop where
  next : r.2 = n + os.length
  tree : Sends g n os → back r.1 = a

namespace Restored

variable {α β γ : Type} {u : α → α} {v : β → β} {w : γ → γ} {a : α} {b : β}
variable {r : α × OccurrenceId} {r' : β × OccurrenceId}

lemma one (f : α → β) (h : Restored g n u os a r) (hf : v (f r.1) = f (u r.1)) :
    Restored g n v os (f a) (f r.1, r.2) :=
  ⟨h.next, fun hs => hf.trans (congrArg f (h.tree hs))⟩

/-- The second part is numbered behind the first. -/
lemma two (f : α → β → γ) (h : Restored g n u os a r) (h' : Restored g r.2 v os' b r')
    (hf : w (f r.1 r'.1) = f (u r.1) (v r'.1)) :
    Restored g n w (os ++ os') (f a b) (f r.1 r'.1, r'.2) := by
  obtain ⟨hn, ha⟩ := h
  obtain ⟨hn', hb⟩ := h'
  refine ⟨?_, fun hs => ?_⟩
  · rw [hn', hn, List.length_append, Nat.add_assoc]
  · obtain ⟨hs, hs'⟩ := sends_append.1 hs
    rw [← hn] at hs'
    rw [hf, ha hs, hb hs']

end Restored

variable (g n)

lemma occurrence_number_restored (use : Occurrence OccurrenceId) :
    Restored g n (Occurrence.relabel id g) [use] use ((use.relabel id fun _ => ()).number n) :=
  ⟨rfl, fun h => congrArg (Occurrence.mk use.toIdent) (List.cons.inj h).1⟩

mutual

theorem Expr.number_restored (n : OccurrenceId) : ∀ e : Expr OccurrenceId,
    Restored g n (Expr.relabel id g) e.occurrences e ((e.relabel id fun _ => ()).number n)
  | .literal _ => ⟨rfl, fun _ => rfl⟩
  | .name kind use => (occurrence_number_restored g n use).one (Expr.name kind) rfl
  | .superGet keyword property => (occurrence_number_restored g n keyword).one (Expr.superGet · property) rfl
  | .assign target value =>
    (Expr.number_restored n value).two (fun e t => Expr.assign t e) (occurrence_number_restored g _ target) rfl
  | .unary op line e => (Expr.number_restored n e).one (Expr.unary op line) rfl
  | .binary op line e e' => (Expr.number_restored n e).two (Expr.binary op line) (Expr.number_restored _ e') rfl
  | .logical op line e e' => (Expr.number_restored n e).two (Expr.logical op line) (Expr.number_restored _ e') rfl
  | .group e => (Expr.number_restored n e).one Expr.group rfl
  | .get e property => (Expr.number_restored n e).one (Expr.get · property) rfl
  | .set e property e' =>
    (Expr.number_restored n e).two (Expr.set · property ·) (Expr.number_restored _ e') rfl
  | .call line e es => (Expr.number_restored n e).two (Expr.call line) (Expr.numberList_restored _ es) rfl

theorem Expr.numberList_restored (n : OccurrenceId) : ∀ es : List (Expr OccurrenceId),
    Restored g n (Expr.relabelList id g) (Expr.occurrencesList es) es
      (Expr.numberList (Expr.relabelList id (fun _ => ()) es) n)
  | [] => ⟨rfl, fun _ => rfl⟩
  | e :: es => (Expr.number_restored n e).two List.cons (Expr.numberList_restored _ es) rfl

end

lemma Expr.numberOption_restored (e : Option (Expr OccurrenceId)) :
    Restored g n (Option.map (Expr.relabel id g)) (Expr.occurrencesOption e) e
      (Expr.numberOption (e.map (Expr.relabel id fun _ => ())) n) := by
  cases e with
  | none => exact ⟨rfl, fun _ => rfl⟩
  | some e => exact (Expr.number_restored g n e).one some rfl

lemma occurrence_numberOption_restored (use : Option (Occurrence OccurrenceId)) :
    Restored g n (Option.map (Occurrence.relabel id g)) use.toList use
      (Occurrence.numberOption (use.map (Occurrence.relabel id fun _ => ())) n) := by
  cases use with
  | none => exact ⟨rfl, fun _ => rfl⟩
  | some use => exact (occurrence_number_restored g n use).one some rfl

mutual

theorem Stmt.number_restored (n : OccurrenceId) : ∀ s : Stmt OccurrenceId,
    Restored g n (Stmt.relabel id g) s.occurrences s ((s.relabel id fun _ => ()).number n)
  | .expr e => (Expr.number_restored g n e).one Stmt.expr rfl
  | .print e => (Expr.number_restored g n e).one Stmt.print rfl
  | .letVar name value => (Expr.numberOption_restored g n value).one (Stmt.letVar name) rfl
  | .constVar name value => (Expr.number_restored g n value).one (Stmt.constVar name) rfl
  | .block body => (Stmt.numberList_restored n body).one Stmt.block rfl
  | .ifThen c yes => (Expr.number_restored g n c).two Stmt.ifThen (Stmt.number_restored _ yes) rfl
  | .ifElse c yes no =>
    ((Expr.number_restored g n c).two Prod.mk (Stmt.number_restored _ yes)
      (w := Prod.map (Expr.relabel id g) (Stmt.relabel id g)) rfl).two
      (fun p no => Stmt.ifElse p.1 p.2 no) (Stmt.number_restored _ no) rfl
  | .while c body => (Expr.number_restored g n c).two Stmt.while (Stmt.number_restored _ body) rfl
  | .function decl => (FunctionDecl.number_restored n decl).one Stmt.function rfl
  | .return line value => (Expr.numberOption_restored g n value).one (Stmt.return line) rfl
  | .classDecl name parent methods statics =>
    ((occurrence_numberOption_restored g n parent).two Prod.mk (FunctionDecl.numberList_restored _ methods)
      (w := Prod.map (Option.map (Occurrence.relabel id g)) (FunctionDecl.relabelList id g)) rfl).two
      (fun p statics => Stmt.classDecl name p.1 p.2 statics) (FunctionDecl.numberList_restored _ statics) rfl

theorem Stmt.numberList_restored (n : OccurrenceId) : ∀ ss : List (Stmt OccurrenceId),
    Restored g n (Stmt.relabelList id g) (Stmt.occurrencesList ss) ss
      (Stmt.numberList (Stmt.relabelList id (fun _ => ()) ss) n)
  | [] => ⟨rfl, fun _ => rfl⟩
  | s :: ss => (Stmt.number_restored n s).two List.cons (Stmt.numberList_restored _ ss) rfl

theorem FunctionDecl.number_restored (n : OccurrenceId) : ∀ d : FunctionDecl (Stmt OccurrenceId),
    Restored g n (FunctionDecl.relabel id g) (FunctionDecl.occurrences d) d
      (FunctionDecl.number (FunctionDecl.relabel id (fun _ => ()) d) n)
  | ⟨name, params, body⟩ => by
    obtain ⟨hn, hbody⟩ := Stmt.numberList_restored n body
    have hparams : ∀ ps : List Ident, ps.map (Ident.relabel id) = ps := List.map_id
    exact ⟨hn, fun hs => congrArg₂ (FunctionDecl.mk name) ((hparams _).trans (hparams params)) (hbody hs)⟩

theorem FunctionDecl.numberList_restored (n : OccurrenceId) : ∀ ds : List (FunctionDecl (Stmt OccurrenceId)),
    Restored g n (FunctionDecl.relabelList id g) (FunctionDecl.occurrencesList ds) ds
      (FunctionDecl.numberList (FunctionDecl.relabelList id (fun _ => ()) ds) n)
  | [] => ⟨rfl, fun _ => rfl⟩
  | d :: ds => (FunctionDecl.number_restored n d).two List.cons (FunctionDecl.numberList_restored _ ds) rfl

end

end ScriptLang

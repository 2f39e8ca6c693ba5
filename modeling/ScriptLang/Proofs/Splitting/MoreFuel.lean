import Mathlib.Tactic.Lemma
import Mathlib.Order.Basic
import ScriptLang.Proofs.Observing.Traced
import ScriptLang.Eval.Run

/-!
# More fuel

Fuel bounds how long a run may last, and nothing else: a run that does not use it up ends the same way with
more of it.

* `Settles` — the second computation does what the first one does, unless that one runs out of fuel;
* `Settles.bind`, `Settles.inFrame`, `mapM_settles` — how computations are put together;
* `runs_settle` — the induction on the fuel for expressions, statements and calls;
* `runProgram_more` — the theorem for whole programs.
-/

namespace ScriptLang

open Eval

variable {α β : Type} {fuel fuel' line : Nat} {m : Machine}

/-- From each machine the first computation runs out of fuel, or the second one does the same. -/
def Settles (x y : Eval α) : Prop := ∀ m, (∃ m', x m = .error .outOfFuel m') ∨ y m = x m

/-! ### How computations are put together -/

section Combining

variable {x y : Eval α} {f g : α → Eval β}

lemma Settles.refl (x : Eval α) : Settles x x := fun _ => .inr rfl

lemma Settles.outOfFuel : Settles (throw .outOfFuel) y := fun m => .inl ⟨m, rfl⟩

lemma Settles.bind (h : Settles x y) (hfg : ∀ a, Settles (f a) (g a)) : Settles (x >>= f) (y >>= g) := by
  intro m
  obtain ⟨m', hx⟩ | hy := h m
  · exact .inl ⟨m', Traced.bind_error hx⟩
  · rcases hx : x m with ⟨a, m1⟩ | ⟨e, m1⟩
    · rw [Traced.bind_ok hx, Traced.bind_ok (hy.trans hx)]
      exact hfg a m1
    · rw [Traced.bind_error hx, Traced.bind_error (hy.trans hx)]
      exact .inr rfl

/-- The two computations begin alike. -/
lemma Settles.behind (x : Eval α) (hfg : ∀ a, Settles (f a) (g a)) : Settles (x >>= f) (x >>= g) :=
  (Settles.refl x).bind hfg

lemma Settles.inFrame (i : FrameId) (h : Settles x y) : Settles (inFrame i x) (inFrame i y) := by
  intro m
  unfold Eval.inFrame
  simp only
  obtain ⟨m', hx⟩ | hy := h { m with current := i }
  · rw [hx]
    exact .inl ⟨_, rfl⟩
  · rw [hy]
    exact .inr rfl

lemma mapM_settles (h : ∀ a, Settles (f a) (g a)) : ∀ as : List α, Settles (as.mapM f) (as.mapM g)
  | [] => .refl _
  | a :: as => by
    rw [List.mapM_cons, List.mapM_cons]
    exact (h a).bind fun _ => (mapM_settles h as).bind fun _ => .refl _

end Combining

/-! ### Parts of runs -/

lemma sequence_settles {run run' : Stmt OccurrenceId → Eval Flow} (h : ∀ s, Settles (run s) (run' s))
    (ss : List (Stmt OccurrenceId)) : Settles (sequence run ss) (sequence run' ss) := by
  induction ss with
  | nil => exact .refl _
  | cons s ss ih =>
    refine (h s).bind fun flow => ?_
    cases flow with
    | normal => exact ih
    | returned v => exact .refl _

lemma repeatWhile_settles {test test' : Eval Value} {body body' : Eval Flow} (ht : Settles test test')
    (hb : Settles body body') :
    ∀ fuel, Settles (repeatWhile test body fuel) (repeatWhile test' body' (fuel + 1))
  | 0 => .outOfFuel
  | fuel + 1 => by
    rw [repeatWhile, repeatWhile]
    refine ht.bind fun v => ?_
    split
    · refine hb.bind fun flow => ?_
      cases flow with
      | normal => exact repeatWhile_settles ht hb fuel
      | returned w => exact .refl _
    · exact .refl _

section Calls

variable {invoke invoke' : Closure → List Value → Eval Value}
  (h : ∀ f args, Settles (invoke f args) (invoke' f args)) (args : List Value)

include h

lemma constructOwn_settles (o : Object) (c : Class) :
    Settles (constructOwn invoke o args line c) (constructOwn invoke' o args line c) := by
  unfold constructOwn
  split
  · exact .refl _
  · exact .behind _ fun _ => .behind _ fun _ => (h _ _).bind fun _ => .refl _

lemma construct_settles (o : Object) : ∀ cs : List Class,
    Settles (construct invoke o args line cs) (construct invoke' o args line cs)
  | [] => .refl _
  | c :: cs => (constructOwn_settles h args o c).bind fun _ => construct_settles o cs

lemma apply_settles (callee : Value) :
    Settles (apply invoke callee args line) (apply invoke' callee args line) := by
  cases callee with
  | closure f => exact .behind _ fun _ => h f args
  | ofClass c =>
    exact .behind _ fun _ => .behind _ fun o => (construct_settles h args o _).bind fun _ => .refl _
  | _ => exact .refl _

end Calls

/-! ### The induction -/

/-- With one more unit of fuel, expressions, statements and calls do the same. -/
structure MoreSettles (fuel : Nat) : Prop where
  evaluate : ∀ e, Settles (evaluate fuel e) (Eval.evaluate (fuel + 1) e)
  execute : ∀ s, Settles (execute fuel s) (Eval.execute (fuel + 1) s)
  invoke : ∀ f args, Settles (invoke fuel f args) (Eval.invoke (fuel + 1) f args)

lemma evaluate_settles (h : MoreSettles fuel) (e : Expr OccurrenceId) :
    Settles (evaluate (fuel + 1) e) (evaluate (fuel + 2) e) := by
  rw [evaluate.eq_def, evaluate.eq_def]
  cases e with
  | literal l => exact .refl _
  | name kind use => exact .refl _
  | assign target e => exact (h.evaluate e).bind fun _ => .refl _
  | unary op line e => exact (h.evaluate e).bind fun _ => .refl _
  | binary op line e e' => exact (h.evaluate e).bind fun _ => (h.evaluate e').bind fun _ => .refl _
  | logical op line e e' =>
    refine (h.evaluate e).bind fun v => ?_
    split
    · exact .refl _
    · exact h.evaluate e'
  | group e => exact h.evaluate e
  | call line e es =>
    exact (h.evaluate e).bind fun v => (mapM_settles h.evaluate es).bind fun vs =>
      apply_settles h.invoke vs v
  | get e name => exact (h.evaluate e).bind fun _ => .refl _
  | superGet keyword name => exact .refl _
  | set e name e' =>
    refine (h.evaluate e).bind fun v => ?_
    cases v with
    | object o => exact (h.evaluate e').bind fun _ => .refl _
    | _ => exact .refl _

lemma execute_settles (h : MoreSettles fuel) (s : Stmt OccurrenceId) :
    Settles (execute (fuel + 1) s) (execute (fuel + 2) s) := by
  rw [execute.eq_def, execute.eq_def]
  cases s with
  | expr e => exact (h.evaluate e).bind fun _ => .refl _
  | print e => exact (h.evaluate e).bind fun _ => .refl _
  | letVar name e =>
    cases e with
    | none => exact .refl _
    | some e => exact (h.evaluate e).bind fun _ => .refl _
  | constVar name e => exact (h.evaluate e).bind fun _ => .refl _
  | block body =>
    exact .behind _ fun _ => .behind _ fun i => (sequence_settles h.execute body).inFrame i
  | ifThen e s =>
    refine (h.evaluate e).bind fun v => ?_
    split
    · exact h.execute s
    · exact .refl _
  | ifElse e s s' =>
    refine (h.evaluate e).bind fun v => ?_
    split
    · exact h.execute s
    · exact h.execute s'
  | «while» e s => exact repeatWhile_settles (h.evaluate e) (h.execute s) fuel
  | function d => exact .refl _
  | «return» line e =>
    cases e with
    | none => exact .refl _
    | some e => exact (h.evaluate e).bind fun _ => .refl _
  | classDecl name parent methods statics => exact .refl _

lemma invoke_settles (h : MoreSettles fuel) (f : Closure) (args : List Value) :
    Settles (invoke (fuel + 1) f args) (invoke (fuel + 2) f args) := by
  rw [invoke, invoke]
  exact .behind _ fun i => .behind _ fun _ => ((sequence_settles h.execute f.decl.body).inFrame i).bind
    fun _ => .refl _

theorem runs_settle (fuel : Nat) : MoreSettles fuel := by
  induction fuel with
  | zero =>
    refine ⟨fun e => ?_, fun s => ?_, fun f args => ?_⟩
    · rw [evaluate]
      exact .outOfFuel
    · rw [execute]
      exact .outOfFuel
    · rw [invoke]
      exact .outOfFuel
  | succ fuel ih => exact ⟨evaluate_settles ih, execute_settles ih, invoke_settles ih⟩

/-! ### Programs -/

lemma runProgram_settles : ∀ (program : Program OccurrenceId) (m : Machine),
    (runProgram fuel program m).1 = .outOfFuel ∨ runProgram (fuel + 1) program m = runProgram fuel program m
  | [], _ => .inr rfl
  | s :: ss, m => by
    rw [runProgram, runProgram]
    obtain ⟨m', hx⟩ | hy := (runs_settle fuel).execute s m
    · rw [hx]
      exact .inl rfl
    · rw [hy]
      rcases execute fuel s m with ⟨flow, m'⟩ | ⟨e | _, m'⟩
      · exact runProgram_settles ss m'
      · exact .inr rfl
      · exact .inl rfl

/-- **More fuel changes nothing** for a run that does not use it up. -/
theorem runProgram_more {program : Program OccurrenceId} (hle : fuel ≤ fuel')
    (h : (runProgram fuel program m).1 ≠ .outOfFuel) :
    runProgram fuel' program m = runProgram fuel program m := by
  induction hle with
  | refl => rfl
  | step _ ih =>
    rw [← ih] at h
    exact ((runProgram_settles program m).resolve_left h).trans ih

lemma runProgram_completed_more {program : Program OccurrenceId} {m' : Machine} (hle : fuel ≤ fuel')
    (h : runProgram fuel program m = (.completed, m')) : runProgram fuel' program m = (.completed, m') :=
  (runProgram_more hle (by rw [h]; exact nofun)).trans h

end ScriptLang

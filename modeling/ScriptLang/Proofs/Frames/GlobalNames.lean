import Mathlib
import ScriptLang.Proofs.Frames.Constancy
import ScriptLang.Proofs.Tree.Regular
import ScriptLang.Proofs.Token.Dispatch

/-!
# Global names

Which names are global depends only on the top-level declarations that were completed.  Expressions, calls and
statements that declare nothing where they stand bind names in frames of their own, and a declaration that fails
leaves nothing behind.

* `EvolvesIn.sameNames` — frames in which no name is bound keep their names;
* `evaluate_quiet`, `apply_quiet`, `execute_quiet` — what leaves the global names as they are;
* `execute_declares` — what a statement at the top level does to them;
* `runProgram_declares` — and what a program does;
* `Session.Reachable.global_names` — the same for the programs of a session.
-/

namespace ScriptLang

open Frames Eval

variable {α : Type} {fs fs' fs'' : Frames} {m m' m'' : Machine} {i : FrameId} {D : FrameId → Prop} {fuel : Nat}
  {name : Ident} {v : Value} {line : Nat}

/-! ### Names of tables and frames -/

lemma names_put (t : Table α) (text : String) (a : α) :
    (t.put text a).names = if t.has text then t.names else t.names ++ [text] := by
  induction t with
  | nil => rfl
  | cons p t ih =>
    obtain ⟨k, b⟩ := p
    unfold Table.names Table.has at ih ⊢
    by_cases hk : k = text
    · simp [Table.put, Table.get?, hk]
    · rw [Table.put, if_neg hk, List.map_cons, ih, Table.get?, if_neg hk]
      split <;> rfl

/-- A frame has the same names as before, in the same tables. -/
def SameNames (i : FrameId) (fs fs' : Frames) : Prop :=
  (fs'.frame i).mutables.names = (fs.frame i).mutables.names ∧
    (fs'.frame i).constants.names = (fs.frame i).constants.names

lemma SameNames.refl : SameNames i fs fs := ⟨rfl, rfl⟩

lemma SameNames.trans (h : SameNames i fs fs') (h' : SameNames i fs' fs'') : SameNames i fs fs'' :=
  ⟨h'.1.trans h.1, h'.2.trans h.2⟩

lemma assign_names {f f' : Frame} {text : String} (h : f.assign text v = .ok f') :
    f'.mutables.names = f.mutables.names ∧ f'.constants.names = f.constants.names := by
  unfold Frame.assign at h
  split at h
  · cases h
  · split at h
    · next hvar =>
      cases h
      exact ⟨by rw [names_put, if_pos hvar], rfl⟩
    · cases h

lemma update_assign_sameNames (fs : Frames) (i j : FrameId) (text : String) (v : Value) :
    SameNames i fs (endState (Frames.update j (fun f => f.assign text v) fs)) := by
  rcases h : Frames.update j (fun f => f.assign text v) fs with ⟨⟨⟩, fs'⟩ | ⟨e, fs'⟩
  · obtain ⟨f', hf, rfl⟩ := update_ok h
    show SameNames i fs (fs.setIfInBounds j f')
    unfold SameNames
    rw [frame_set]
    split
    · next hij => exact hij.1 ▸ assign_names hf
    · exact ⟨rfl, rfl⟩
  · rw [update_error h]
    exact .refl

/-- An operation that binds no name in a frame leaves it its names. -/
lemma after_sameNames {op : FrameOp} (hi : i < fs.size)
    (hdefine : ∀ text v constant, op ≠ .define i text v constant) : SameNames i fs (op.after fs) := by
  cases op with
  | new parent =>
    unfold FrameOp.after FrameOp.perform SameNames
    simp only [endState]
    rw [frame_add, if_neg (Nat.ne_of_lt hi)]
    exact ⟨rfl, rfl⟩
  | get j text | getAt j hops text =>
    rw [FrameOp.after, FrameOp.perform, reading_end]
    exact .refl
  | define j text v constant =>
    rw [FrameOp.after, FrameOp.perform, writing_end]
    rcases h : Frames.define j text v constant fs with ⟨⟨⟩, fs'⟩ | ⟨e, fs'⟩
    · obtain ⟨f', -, rfl⟩ := update_ok h
      have hne : ¬ (j = i ∧ j < fs.size) := by
        rintro ⟨rfl, -⟩
        exact hdefine text v constant rfl
      unfold SameNames
      simp only [endState]
      rw [frame_set, if_neg hne]
      exact ⟨rfl, rfl⟩
    · rw [update_error h]
      exact .refl
  | assign j text v =>
    rw [FrameOp.after, FrameOp.perform, writing_end]
    unfold Frames.assign
    split
    · exact .refl
    · exact update_assign_sameNames fs i _ text v
  | assignAt j hops text v =>
    rw [FrameOp.after, FrameOp.perform, writing_end]
    exact update_assign_sameNames fs i _ text v

/-- **A frame in which no name is bound keeps its names.** -/
theorem EvolvesIn.sameNames (h : EvolvesIn D fs fs') (hi : i < fs.size) (hD : ¬ D i) : SameNames i fs fs' := by
  obtain ⟨ops, hops, hdefines⟩ := h
  induction hops with
  | nil => exact .refl
  | @cons fs fs' op ops hon _ ih =>
    have hfirst : SameNames i fs (op.after fs) := after_sameNames hi fun text v constant heq =>
      hD (hdefines i text v constant (heq ▸ List.mem_cons_self))
    exact hfirst.trans (ih (Nat.lt_of_lt_of_le hi (after_size_le hon)) fun j text v constant hmem =>
      hdefines j text v constant (List.mem_cons_of_mem _ hmem))

/-! ### What leaves global names as they are -/

/-- Running has added names to the global ones: variables and constants, in the order of the lists. -/
structure Declares (vs cs : List String) (m m' : Machine) : Prop where
  current : m'.current = m.current
  size : m.frames.size ≤ m'.frames.size
  mutables : (m'.frames.frame globalFrame).mutables.names = (m.frames.frame globalFrame).mutables.names ++ vs
  constants : (m'.frames.frame globalFrame).constants.names = (m.frames.frame globalFrame).constants.names ++ cs

/-- Running has left the global names as they were. -/
abbrev Quiet (m m' : Machine) : Prop := Declares [] [] m m'

lemma Quiet.refl : Quiet m m := ⟨rfl, Nat.le_refl _, by rw [List.append_nil], by rw [List.append_nil]⟩

lemma Declares.trans {vs vs' cs cs' : List String} (h : Declares vs cs m m') (h' : Declares vs' cs' m' m'') :
    Declares (vs ++ vs') (cs ++ cs') m m'' :=
  ⟨h'.current.trans h.current, Nat.le_trans h.size h'.size, by rw [h'.mutables, h.mutables, List.append_assoc],
    by rw [h'.constants, h.constants, List.append_assoc]⟩

/-- Where names are bound in frames of its own only, or not in the global one. -/
lemma Evolving.quiet {here : Bool} {t : Marked α} (h : Evolving (0 < ·) here t m)
    (hm : m.current < m.frames.size) (hhere : here = true → 0 < m.current) : Quiet m (endState (t.run m)) := by
  have h0 : 0 < m.frames.size := Nat.zero_lt_of_lt hm
  obtain ⟨hframes, hcur⟩ := h ⟨hm, fun i hi => Nat.lt_of_lt_of_le h0 hi, hhere⟩
  have hend := (List.pairwise_cons.1 hframes).1 _ (List.mem_append_right _ (List.mem_singleton.2 rfl))
  obtain ⟨hmutables, hconstants⟩ := hend.sameNames (i := globalFrame) h0 (Nat.lt_irrefl 0)
  exact ⟨hcur, hend.size_le, by rw [hmutables, List.append_nil], by rw [hconstants, List.append_nil]⟩

lemma evaluate_quiet (hm : m.current < m.frames.size) (fuel : Nat) (e : Expr OccurrenceId) :
    Quiet m (endState (evaluate fuel e m)) := by
  rw [← (Observer.expressions.erased fuel).1 e]
  exact ((runs_evolve _ fuel).evaluate false e m).quiet hm nofun

lemma apply_quiet (hm : m.current < m.frames.size) (fuel : Nat) (callee : Value) (args : List Value)
    (line : Nat) : Quiet m (endState (apply (invoke fuel) callee args line m)) := by
  rw [← Observer.expressions.apply_run (Observer.expressions.erased fuel).2.2]
  exact (apply_evolving fun f args m => (runs_evolve _ fuel).invoke false f args m).quiet hm nofun

lemma execute_quiet (hm : m.current < m.frames.size) (fuel : Nat) {s : Stmt OccurrenceId}
    (hs : s.declaresHere = true → 0 < m.current) : Quiet m (endState (execute fuel s m)) := by
  rw [← Observer.expressions.execute_run fuel () s]
  exact ((runs_evolve _ fuel).execute s.declaresHere s m id).quiet hm hs

lemma superclass_quiet (hm : m.current < m.frames.size) (parent : Option (Occurrence OccurrenceId)) :
    Quiet m (endState (superclass name parent m)) := by
  have hevolving : Evolving (0 < ·) false (Observer.expressions.superclass name parent) m := superclass_evolving parent
  rw [← Observer.expressions.superclass_run]
  exact hevolving.quiet hm nofun

lemma newClosure_quiet (decl : FunctionDecl (Stmt OccurrenceId)) (m : Machine) :
    Quiet m (endState (newClosure decl m)) :=
  ⟨rfl, Nat.le_refl _, (List.append_nil _).symm, (List.append_nil _).symm⟩

/-! ### Declarations at the top level -/

/-- The names that a statement declares as variables where it stands. -/
def Stmt.variableNames {ι : Type} : Stmt ι → List String
  | .letVar name _ | .classDecl name .. => [name.text]
  | .function decl => [decl.name.text]
  | _ => []

/-- The names that a statement declares as constants where it stands. -/
def Stmt.constantNames {ι : Type} : Stmt ι → List String
  | .constVar name _ => [name.text]
  | _ => []

open Traced in
lemma Ends.bind {ε σ β : Type} {x : EStateM ε σ α} {f : α → EStateM ε σ β} {s : σ} {Q : α → σ → Prop}
    {R : β → σ → Prop} {E : σ → Prop} (h : Ends Q E (x s)) (hf : ∀ a s', Q a s' → Ends R E (f a s')) :
    Ends R E ((x >>= f) s) := by
  rcases hx : x s with ⟨a, s'⟩ | ⟨e, s'⟩
  · rw [hx] at h
    rw [bind_ok hx]
    exact hf a s' h
  · rw [hx] at h
    rw [bind_error hx]
    exact h

/-- Running that ends in success adds names, and running that fails adds none. -/
def Adds (vs cs : List String) (m : Machine) (r : EStateM.Result Stop Machine α) : Prop :=
  Traced.Ends (fun _ m' => Declares vs cs m m') (Quiet m) r

lemma Quiet.adds {r : EStateM.Result Stop Machine α} (h : Quiet m (endState r)) : Adds [] [] m r := by
  cases r <;> exact h

/-- Steps in front that add no names. -/
lemma Adds.after_quiet {β : Type} {x : Eval α} {f : α → Eval β} {vs cs : List String} (h : Adds [] [] m (x m))
    (hf : ∀ a m', Quiet m m' → Adds vs cs m' (f a m')) : Adds vs cs m ((x >>= f) m) := by
  refine Ends.bind h fun a m' hq => (hf a m' hq).mono (fun _ m'' h => ?_) fun m'' h => ?_
  · exact hq.trans h
  · exact hq.trans h

/-- A name that is bound comes behind the others of its table. -/
lemma define_names {f f' : Frame} {text : String} {constant : Bool} (h : f.define text v constant = .ok f') :
    f'.mutables.names = f.mutables.names ++ (if constant then [] else [text]) ∧
      f'.constants.names = f.constants.names ++ (if constant then [text] else []) := by
  unfold Frame.define at h
  split at h
  · cases h
  · next hfree =>
    obtain ⟨hvar, hconst⟩ := Bool.or_eq_false_iff.1 (Bool.eq_false_iff.2 hfree)
    split at h <;> cases h
    · next hc => simp [hc, names_put, hconst]
    · next hc => simp [hc, names_put, hvar]

/-- A name is bound in the current frame, or it was bound there before and nothing happens. -/
lemma define_cases (name : Ident) (v : Value) (constant : Bool) (m : Machine) :
    (∃ f', (m.frames.frame m.current).define name.text v constant = .ok f' ∧
      Eval.define name v constant m = .ok () { m with frames := m.frames.setIfInBounds m.current f' }) ∨
    (m.frames.frame m.current).binds name.text = true ∧
      Eval.define name v constant m = .error (.error (.identifierAlreadyDeclared name.text name.line)) m := by
  rcases hf : (m.frames.frame m.current).define name.text v constant with e | f'
  · have hrefused := hf
    unfold Frame.define at hrefused
    split at hrefused
    · next hbinds =>
      cases hrefused
      exact .inr ⟨hbinds, change_of_error (Frames.define m.current name.text v constant) (update_of_error hf)⟩
    · split at hrefused <;> cases hrefused
  · exact .inl ⟨f', rfl, change_of_ok (Frames.define m.current name.text v constant) (update_of_ok hf)⟩

/-- What is bound in the global frame is one more name of it. -/
lemma define_adds (constant : Bool) (hcur : m.current = globalFrame) (h0 : 0 < m.frames.size) :
    Adds (if constant then [] else [name.text]) (if constant then [name.text] else []) m
      (Eval.define name v constant m) := by
  rcases define_cases name v constant m with ⟨f', hf, hok⟩ | ⟨-, herr⟩
  · rw [hok, hcur]
    rw [hcur] at hf
    obtain ⟨hmutables, hconstants⟩ := define_names hf
    refine ⟨hcur.symm, Nat.le_of_eq Array.size_setIfInBounds.symm, ?_, ?_⟩
    · rw [frame_set, if_pos ⟨rfl, h0⟩]
      exact hmutables
    · rw [frame_set, if_pos ⟨rfl, h0⟩]
      exact hconstants
  · rw [herr]
    exact Quiet.refl (m := m)

/-- The functions of several declarations in a frame, with stamps from the given one on. -/
def closuresOf (frame : FrameId) (stamp : Stamp) (decls : List (FunctionDecl (Stmt OccurrenceId))) : Table Closure :=
  .ofEntries ((decls.zipIdx stamp).map fun p => (p.1.name.text, ⟨p.2, p.1, frame⟩))

/-- Functions are made in the current frame without a failure, and only stamps are used up. -/
lemma newClosures_eq (decls : List (FunctionDecl (Stmt OccurrenceId))) (m : Machine) :
    newClosures decls m =
      .ok (closuresOf m.current m.nextStamp decls) { m with nextStamp := m.nextStamp + decls.length } := by
  have made : ∀ (decls : List (FunctionDecl (Stmt OccurrenceId))) (m : Machine),
      (decls.mapM fun d => return (d.name.text, ← newClosure d)) m =
        .ok ((decls.zipIdx m.nextStamp).map fun p => (p.1.name.text, (⟨p.2, p.1, m.current⟩ : Closure)))
          { m with nextStamp := m.nextStamp + decls.length } := by
    intro decls
    induction decls with
    | nil => exact fun m => rfl
    | cons d ds ih =>
      intro m
      have hfirst : (do return (d.name.text, ← newClosure d) : Eval (String × Closure)) m =
          .ok (d.name.text, ⟨m.nextStamp, d, m.current⟩) { m with nextStamp := m.nextStamp + 1 } := rfl
      rw [List.mapM_cons, Traced.bind_ok hfirst, Traced.bind_ok (ih _), List.length_cons, Nat.add_right_comm]
      rfl
  exact Traced.bind_ok (made decls m)

/-- The functions are made of the declarations given and in the current frame. -/
lemma newClosures_ok (decls : List (FunctionDecl (Stmt OccurrenceId))) (m : Machine) :
    ∃ t stamp, newClosures decls m = .ok t { m with nextStamp := stamp } ∧
      ∀ text f, t.get? text = some f → f.decl ∈ decls ∧ f.frame = m.current := by
  refine ⟨_, _, newClosures_eq decls m, fun text f hf => ?_⟩
  obtain ⟨p, hp, heq⟩ := List.mem_map.1 (mem_of_ofEntries hf)
  cases heq
  exact ⟨List.fst_mem_of_mem_zipIdx hp, rfl⟩

lemma frame_assign_ok {f : Frame} {text : String} (hvar : f.mutables.has text = true)
    (hconst : f.constants.has text = false) : f.assign text v = .ok { f with mutables := f.mutables.put text v } := by
  rw [Frame.assign, hconst, hvar]
  rfl

/-- The class takes the place of the value under its own name, and that does not fail. -/
lemma assignAt_quiet (m : Machine) (name : Ident) (v : Value)
    (hname : ((m.frames.frame m.current).mutables.has name.text) = true)
    (hconst : ((m.frames.frame m.current).constants.has name.text) = false) :
    ∃ m', change name.line (Frames.assignAt m.current 0 name.text v) m = .ok () m' ∧ Quiet m m' := by
  have hupdate : Frames.update m.current (fun f => f.assign name.text v) m.frames = .ok () _ :=
    update_of_ok (frame_assign_ok hname hconst)
  obtain ⟨hmutables, hconstants⟩ := update_assign_sameNames m.frames globalFrame m.current name.text v
  rw [hupdate] at hmutables hconstants
  refine ⟨_, change_of_ok (Frames.assignAt m.current 0 name.text v) hupdate, rfl,
    Nat.le_of_eq Array.size_setIfInBounds.symm, ?_, ?_⟩
  · rw [List.append_nil]
    exact hmutables
  · rw [List.append_nil]
    exact hconstants

/-- Once the name of a class is bound, declaring it does not fail. -/
lemma declareBody_ok (parent : Option Class) (methods statics : List (FunctionDecl (Stmt OccurrenceId)))
    (h : Eval.define name .null false m = .ok () m') (hm : m.current < m.frames.size) :
    ∃ m'', declareBody name parent methods statics m = .ok () m'' ∧ Quiet m' m'' := by
  rcases define_cases name .null false m with ⟨f', hf, hok⟩ | ⟨-, herr⟩
  · obtain rfl : { m with frames := m.frames.setIfInBounds m.current f' } = m' := by
      rw [hok] at h
      cases h
      rfl
    obtain ⟨hfree, hput⟩ := frame_define hf
    obtain ⟨ms, stamp, hms, -⟩ := newClosures_ok methods
      { m with frames := m.frames.setIfInBounds m.current f', nextStamp := m.nextStamp + 1 }
    obtain ⟨ss, stamp', hss, -⟩ := newClosures_ok statics
      { m with frames := m.frames.setIfInBounds m.current f', nextStamp := stamp }
    have hframe : Frames.frame (m.frames.setIfInBounds m.current f') m.current = f' := by
      rw [frame_set, if_pos ⟨rfl, hm⟩]
    have hvar : f'.entry false name.text = some .null := by rw [hput.entry, if_pos ⟨rfl, rfl⟩]
    have hconst : f'.entry true name.text = none := by
      rw [hput.entry, if_neg (by simp), binds_eq_false hfree true]
    obtain ⟨m'', hassign, hquiet⟩ := assignAt_quiet
      { m with frames := m.frames.setIfInBounds m.current f', nextStamp := stamp' } name
      (.ofClass (.extending parent ⟨m.nextStamp, name.text, ms, ss⟩))
      (by rw [hframe]; exact congrArg Option.isSome hvar) (by rw [hframe]; exact congrArg Option.isSome hconst)
    refine ⟨m'', ?_, hquiet.current, hquiet.size, hquiet.mutables, hquiet.constants⟩
    have hstamp : newStamp { m with frames := m.frames.setIfInBounds m.current f' } = .ok m.nextStamp
      { m with frames := m.frames.setIfInBounds m.current f', nextStamp := m.nextStamp + 1 } := rfl
    rw [declareBody, Traced.bind_ok hok, finishClass, Traced.bind_ok hstamp, Traced.bind_ok hms, Traced.bind_ok hss]
    exact hassign
  · rw [herr] at h
    cases h

lemma declareBody_adds {parent : Option Class} {methods statics : List (FunctionDecl (Stmt OccurrenceId))}
    (hcur : m.current = globalFrame) (h0 : 0 < m.frames.size) :
    Adds [name.text] [] m (declareBody name parent methods statics m) := by
  have hadds : Adds [name.text] [] m (Eval.define name .null false m) := define_adds false hcur h0
  rcases h : Eval.define name .null false m with ⟨⟨⟩, m'⟩ | ⟨stop, m'⟩
  · obtain ⟨m'', hok, hquiet⟩ := declareBody_ok parent methods statics h (hcur.symm ▸ h0)
    rw [h] at hadds
    rw [hok]
    exact hadds.trans hquiet
  · rw [h] at hadds
    rw [declareBody, Traced.bind_error h]
    exact hadds

/-- **What a statement does to the global names at the top level**: one that is completed adds the names that it
declares, and one that fails adds none. -/
theorem execute_declares (fuel : Nat) (hcur : m.current = globalFrame) (h0 : 0 < m.frames.size) {s : Stmt OccurrenceId}
    (hs : s.declaresHere = true → s.isDeclaration = true) :
    Adds s.variableNames s.constantNames m (execute fuel s m) := by
  have hplace : ∀ {m'}, Quiet m m' → m'.current = globalFrame ∧ 0 < m'.frames.size := fun h =>
    ⟨h.current.trans hcur, Nat.lt_of_lt_of_le h0 h.size⟩
  have hquiet : ∀ e fuel, Adds [] [] m (evaluate fuel e m) := fun e fuel =>
    (evaluate_quiet (hcur.symm ▸ h0) fuel e).adds
  have hpure : ∀ {vs cs : List String} {x : Eval Unit} {m' : Machine}, Adds vs cs m' (x m') →
      Adds vs cs m' ((x >>= fun _ => return Flow.normal : Eval Flow) m') :=
    fun h => Ends.bind h fun _ _ h => h
  cases fuel with
  | zero =>
    rw [execute]
    exact Quiet.refl (m := m)
  | succ fuel =>
    cases s with
    | letVar name value =>
      rw [execute.eq_def]
      cases value with
      | none => exact hpure (define_adds false hcur h0)
      | some value =>
        refine (hquiet value fuel).after_quiet fun v m' h => ?_
        exact hpure (define_adds false (hplace h).1 (hplace h).2)
    | constVar name value =>
      rw [execute.eq_def]
      refine (hquiet value fuel).after_quiet fun v m' h => ?_
      exact hpure (define_adds true (hplace h).1 (hplace h).2)
    | function decl =>
      rw [execute.eq_def]
      refine Adds.after_quiet (newClosure_quiet decl m).adds fun f m' h => ?_
      exact hpure (define_adds false (hplace h).1 (hplace h).2)
    | classDecl name parent methods statics =>
      rw [execute.eq_def]
      refine hpure (Adds.after_quiet (superclass_quiet (hcur.symm ▸ h0) parent).adds fun c m' h => ?_)
      exact declareBody_adds (hplace h).1 (hplace h).2
    | _ => exact (execute_quiet (hcur.symm ▸ h0) _ fun h => absurd (hs h) Bool.false_ne_true).adds

/-! ### Programs -/

/-- How many statements of a program a run completes. -/
def completed (fuel : Nat) : Program OccurrenceId → Machine → Nat
  | [], _ => 0
  | s :: ss, m =>
    match execute fuel s m with
    | .ok _ m' => completed fuel ss m' + 1
    | .error _ _ => 0

/-- The result of a run says at which statement of the program it has stopped, if at any. -/
def StopsAt (program : Program OccurrenceId) (k : Nat) : RunResult → Prop
  | .completed => k = program.length
  | .failed failure => program[k]? = some failure.statement
  | .outOfFuel => k < program.length

lemma runProgram_stopsAt (fuel : Nat) (program : Program OccurrenceId) (m : Machine) :
    StopsAt program (completed fuel program m) (runProgram fuel program m).1 := by
  induction program generalizing m with
  | nil => rfl
  | cons s ss ih =>
    rw [completed, runProgram]
    rcases execute fuel s m with ⟨flow, m'⟩ | ⟨stop, m'⟩
    · have hlater := ih m'
      simp only
      rcases hend : (runProgram fuel ss m').1 with _ | failure | _ <;> rw [hend] at hlater
      · exact congrArg (· + 1) hlater
      · exact hlater
      · exact Nat.succ_lt_succ hlater
    · cases stop with
      | error e => rfl
      | outOfFuel => exact Nat.succ_pos _

/-- **What a program does to the global names**: the statements that it completes add the names that they
declare, and nothing else does anything. -/
theorem runProgram_declares {program : Program OccurrenceId} (hcur : m.current = globalFrame)
    (h0 : 0 < m.frames.size) (hp : ∀ s ∈ program, s.declaresHere = true → s.isDeclaration = true) :
    Declares ((program.take (completed fuel program m)).flatMap Stmt.variableNames)
      ((program.take (completed fuel program m)).flatMap Stmt.constantNames) m
      (runProgram fuel program m).2 := by
  induction program generalizing m with
  | nil => exact Quiet.refl
  | cons s ss ih =>
    obtain ⟨hs, hss⟩ := List.forall_mem_cons.1 hp
    have hadds := execute_declares fuel hcur h0 hs
    rw [completed, runProgram]
    rcases hrun : execute fuel s m with ⟨flow, m'⟩ | ⟨stop, m'⟩
    · rw [hrun] at hadds
      have hlater := ih (hadds.current.trans hcur) (Nat.lt_of_lt_of_le h0 hadds.size) hss
      simp only [List.take_succ_cons, List.flatMap_cons]
      exact hadds.trans hlater
    · rw [hrun] at hadds
      cases stop <;> exact hadds

/-! ### Programs that were read -/

namespace Grammar

lemma LoopBody.declaresHere {s body : Stmt Unit} {o : Option (Expr Unit)} (h : LoopBody s o body)
    (hs : s.declaresHere = false) : body.declaresHere = false := by
  cases h with
  | plain => exact hs
  | increment => rfl

lemma LoopFrame.declaresHere {c : Expr Unit} {body tree : Stmt Unit} {o : Option (Stmt Unit)}
    (h : LoopFrame (.while c body) o tree) (hb : body.declaresHere = false) : tree.declaresHere = false := by
  cases h with
  | plain => exact hb
  | initialized => rfl

/-- A statement declares nothing where it stands. -/
lemma IsStatement.declaresHere : ∀ {d : Bool} {ts : List Token} {s : Stmt Unit}, IsStatement d ts s →
    s.declaresHere = false
  | _, _, _, .ifThen _ _ hy => hy.declaresHere
  | _, _, _, .ifElse _ _ hy _ hn => Bool.or_eq_false_iff.2 ⟨hy.declaresHere, hn.declaresHere⟩
  | _, _, _, .while _ _ hb => hb.declaresHere
  | _, _, _, .for _ _ _ _ _ _ _ hb _ hbody hframe =>
    LoopFrame.declaresHere hframe (LoopBody.declaresHere hbody hb.declaresHere)
  | _, _, _, .expr _ _ | _, _, _, .print _ _ _ | _, _, _, .return _ _ _ | _, _, _, .block _ _ _ => rfl

lemma IsDeclaration.declaresHere {d : Bool} {ts : List Token} {s : Stmt Unit} (h : IsDeclaration d ts s)
    (hs : s.declaresHere = true) : s.isDeclaration = true := by
  cases h with
  | statement h =>
    rw [IsStatement.declaresHere h] at hs
    cases hs
  | letVar hl => cases hl <;> rfl
  | _ => rfl

lemma AreDeclarations.declaresHere {ts : List Token} {ss : List (Stmt Unit)} (h : AreDeclarations ts ss) :
    ∀ s ∈ ss, s.declaresHere = true → s.isDeclaration = true := by
  match h with
  | .nil => exact nofun
  | .cons h hss =>
    exact List.forall_mem_cons.2 ⟨IsDeclaration.declaresHere h, AreDeclarations.declaresHere hss⟩

end Grammar

section Numbering

variable {ι κ : Type} (f : Nat → Nat) (g : ι → κ)

lemma Stmt.declaresHere_relabel (s : Stmt ι) : (s.relabel f g).declaresHere = s.declaresHere := by
  match s with
  | .ifThen _ yes => exact Stmt.declaresHere_relabel yes
  | .ifElse _ yes no =>
    exact congrArg₂ (· || ·) (Stmt.declaresHere_relabel yes) (Stmt.declaresHere_relabel no)
  | .while _ body => exact Stmt.declaresHere_relabel body
  | .expr _ | .print _ | .letVar .. | .constVar .. | .block _ | .function _ | .return .. | .classDecl .. => rfl

lemma mem_relabelList {ss : List (Stmt ι)} {s : Stmt ι} (h : s ∈ ss) :
    s.relabel f g ∈ Stmt.relabelList f g ss := by
  induction ss with
  | nil => cases h
  | cons t ss ih =>
    rcases List.mem_cons.1 h with rfl | h
    · exact List.mem_cons_self
    · exact List.mem_cons_of_mem _ (ih h)

end Numbering

/-- In a program that was read, whatever can declare a name at the top level is a declaration. -/
lemma Session.numbered_declaresHere {s : Session} {tokens : List Token} {tree : Program Unit}
    (hparse : Program.parse tokens = .ok tree) :
    ∀ t ∈ s.numbered tree, t.declaresHere = true → t.isDeclaration = true := by
  intro t ht hdeclares
  have hforget := (Stmt.numberList_spec s.nextId tree).forget
  have hmem : t.relabel id (fun _ => ()) ∈ tree := by
    rw [← hforget]
    exact mem_relabelList id (fun _ => ()) ht
  have htree := Grammar.AreDeclarations.declaresHere (parse_ok_iff.1 hparse) _ hmem
  rw [Stmt.declaresHere_relabel, Stmt.isDeclaration_relabel] at htree
  exact htree hdeclares

/-! ### Sessions -/

lemma perm_sortedNames (t : Table α) : t.sortedNames.Perm t.names := List.mergeSort_perm _ _

/-- **Global names change only by completed top-level declarations.**  Of a program that a session runs, whatever
comes of it, let the first statements be completed.  Then the names of their variables, functions and classes have
come to the global variables, those of their constants to the global constants, and no name is both.  Nothing else
adds or removes a global name, wherever it runs: no expression, no call, no making of an instance, no statement
that declares nothing where it stands, as no statement in a block or function does for the global frame, and no
statement of the program that fails. -/
theorem Session.Reachable.global_names {s : Session} (h : s.Reachable) {tokens : List Token}
    {tree : Program Unit} (hparse : Program.parse tokens = .ok tree) (L : Locals) (fuel : Nat) :
    let program := s.numbered tree
    let start := { s.machine with locals := L }
    let run := runProgram fuel program start
    let k := completed fuel program start
    StopsAt program k run.1 ∧
    run.2.globals.Perm (start.globals ++ (program.take k).flatMap Stmt.variableNames) ∧
    run.2.constants.Perm (start.constants ++ (program.take k).flatMap Stmt.constantNames) ∧
    (∀ name ∈ run.2.globals, name ∉ run.2.constants) ∧
    ∀ (m : Machine) (fuel : Nat), m.current < m.frames.size →
      (∀ e, Quiet m (endState (evaluate fuel e m))) ∧
      (∀ callee args line, Quiet m (endState (apply (invoke fuel) callee args line m))) ∧
      (∀ t : Stmt OccurrenceId, t.declaresHere = false ∨ m.current ≠ globalFrame →
        Quiet m (endState (execute fuel t m))) ∧
      ∀ t ∈ program, (t.isDeclaration = false → t.declaresHere = false) ∧
        ∀ stop m', execute fuel t m = .error stop m' → Quiet m m' := by
  intro program start run k
  obtain ⟨hcur, h0, hdisjoint⟩ := h.at_rest
  have hdeclares : Declares ((program.take k).flatMap Stmt.variableNames)
      ((program.take k).flatMap Stmt.constantNames) start run.2 :=
    runProgram_declares hcur h0 (numbered_declaresHere hparse)
  refine ⟨runProgram_stopsAt fuel program start, ?_, ?_, ?_, fun m fuel hm => ⟨?_, ?_, ?_, ?_⟩⟩
  · refine (perm_sortedNames _).trans ?_
    rw [hdeclares.mutables]
    exact (perm_sortedNames _).symm.append_right _
  · refine (perm_sortedNames _).trans ?_
    rw [hdeclares.constants]
    exact (perm_sortedNames _).symm.append_right _
  · intro name hvar hconst
    have hstart : start.current < start.frames.size := hcur.symm ▸ h0
    have hframes := (runProgram_evolves fuel program (room_anywhere hstart)).1
    have hend := (List.pairwise_cons.1 hframes).1 _ (List.mem_append_right _ (List.mem_singleton.2 rfl))
    obtain ⟨ops, hops, -⟩ := hend
    rcases (hops.keeps hdisjoint).2 globalFrame name with hnone | hnone
    · exact Table.get?_eq_none_iff.1 hnone ((perm_sortedNames _).mem_iff.1 hvar)
    · exact Table.get?_eq_none_iff.1 hnone ((perm_sortedNames _).mem_iff.1 hconst)
  · exact fun e => evaluate_quiet hm fuel e
  · exact fun callee args line => apply_quiet hm fuel callee args line
  · rintro t ht
    refine execute_quiet hm fuel fun hdecl => ?_
    rcases ht with ht | ht
    · rw [ht] at hdecl
      cases hdecl
    · exact Nat.pos_of_ne_zero ht
  · intro t ht
    have hread := numbered_declaresHere hparse t ht
    refine ⟨fun hdecl => ?_, fun stop m' herr => ?_⟩
    · rw [← Bool.not_eq_true]
      exact fun hhere => absurd (hread hhere) (hdecl ▸ Bool.false_ne_true)
    · by_cases hglobal : m.current = globalFrame
      · have hadds := execute_declares fuel hglobal (Nat.zero_lt_of_lt hm) hread
        rw [herr] at hadds
        exact hadds
      · have hquiet := execute_quiet hm fuel (s := t) fun _ => Nat.pos_of_ne_zero hglobal
        rw [herr] at hquiet
        exact hquiet

/-- A variable and a constant are declared before a statement fails. -/
theorem Session.global_names_let_const :
    let tree : Program Unit := [.letVar ⟨"a", 1⟩ none, .constVar ⟨"b", 1⟩ (.literal (.bool true)),
      .expr (.unary .negate 1 (.literal (.bool true)))]
    let program := (Session.initial none).numbered tree
    let start := (Session.initial none).machine
    (Session.initial none).Reachable ∧
    Program.parse (Scan.ofString "let a; const b = true; -true;").tokens = .ok tree ∧
    completed 3 program start = 2 ∧ StopsAt program 2 (runProgram 3 program start).1 ∧
    (runProgram 3 program start).2.globals.Perm ["a"] ∧ (runProgram 3 program start).2.constants.Perm ["b"] := by
  intro tree program start
  have hparse : Program.parse (Scan.ofString "let a; const b = true; -true;").tokens = .ok tree := by
    rw [Scan.ofString_eq_dispatch]
    cbv
  have hcompleted : completed 3 program start = 2 := by cbv
  obtain ⟨hstop, hglobals, hconstants, -⟩ := (Session.Reachable.initial none).global_names hparse ∅ 3
  have hstop : StopsAt program (completed 3 program start) (runProgram 3 program start).1 := hstop
  have hglobals : (runProgram 3 program start).2.globals.Perm
    (start.globals ++ (program.take (completed 3 program start)).flatMap Stmt.variableNames) := hglobals
  have hconstants : (runProgram 3 program start).2.constants.Perm
    (start.constants ++ (program.take (completed 3 program start)).flatMap Stmt.constantNames) := hconstants
  have hnames : start.globals ++ (program.take 2).flatMap Stmt.variableNames = ["a"] ∧
      start.constants ++ (program.take 2).flatMap Stmt.constantNames = ["b"] := ⟨by cbv, by cbv⟩
  rw [hcompleted] at hstop hglobals hconstants
  rw [hnames.1] at hglobals
  rw [hnames.2] at hconstants
  exact ⟨.initial none, hparse, hcompleted, hstop, hglobals, hconstants⟩

end ScriptLang

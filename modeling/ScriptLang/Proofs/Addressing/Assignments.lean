import ScriptLang.Proofs.Addressing.Sessions
import ScriptLang.Proofs.Frames.Restoration
import ScriptLang.Proofs.Token.Dispatch

/-!
# Assignments find their names

An assignment looks its name up when its value has been computed.  Its entry in the table was made where the name
stands in a scope; there it is defined, so that the frame binds it, or it is the name of a declaration in whose
initializer the assignment stands.  Reading a variable in its own initializer is an error of resolving, assigning to
it is not.

* `AssignsIn` — an assignment that finds its name in a frame;
* `assign_cases` — what an assignment does that has an entry;
* `assignment_finds` — the theorem;
* `own_initializer_unbound` — a variable that is assigned to in its own initializer is not found.
-/

namespace ScriptLang

open Resolving Grammar

variable {fs fs' : Frames} {i : FrameId} {m m' : Machine} {target : Occurrence OccurrenceId} {v : Value}
  {d : Nat} {text : String}

/-! ### What an assignment does -/

/-- The assignment finds its name in the frame: the name has the value there afterwards and the other frames are as
they were, or the name is a constant and the assignment fails for that. -/
structure AssignsIn (i : FrameId) (target : Occurrence OccurrenceId) (v : Value) (m : Machine) : Prop where
  bound : (m.frames.frame i).binds target.text = true
  assigned : (m.frames.frame i).constants.has target.text = false →
    ∃ fs, Eval.assign target v m = .ok () { m with frames := fs } ∧ (fs.frame i).get? target.text = some v ∧
      ∀ j, j ≠ i → fs.frame j = m.frames.frame j
  refused : (m.frames.frame i).constants.has target.text = true →
    Eval.assign target v m = .error (.error (.assignmentToConstant target.text target.line)) m

/-- An assignment with an entry changes the frame that many steps out, or it fails there. -/
lemma assign_at (hd : m.locals[target.id]? = some d) :
    Eval.assign target v m =
      match (m.frames.frame (m.frames.ancestor d m.current)).assign target.text v with
      | .ok f => .ok () { m with frames := m.frames.setIfInBounds (m.frames.ancestor d m.current) f }
      | .error e => .error (.error (e.atLine target.line)) m := by
  unfold Eval.assign
  rw [Traced.bind_get]
  simp only [hd]
  unfold Eval.change Frames.assignAt Frames.update
  dsimp only
  cases (m.frames.frame (m.frames.ancestor d m.current)).assign target.text v <;> rfl

/-- An assignment with an entry finds its name in the frame that many steps out, or the frame does not bind it. -/
lemma assign_cases (hd : m.locals[target.id]? = some d) :
    AssignsIn (m.frames.ancestor d m.current) target v m ∨
      (m.frames.frame (m.frames.ancestor d m.current)).binds target.text = false ∧
        Eval.assign target v m = .error (.error (.undefinedVariable target.text target.line)) m := by
  have hassign := assign_at (v := v) hd
  generalize m.frames.ancestor d m.current = i at hassign
  unfold Frame.assign at hassign
  rcases hconst : (m.frames.frame i).constants.has target.text with _ | _
  · rcases hmut : (m.frames.frame i).mutables.has target.text with _ | _
    · simp only [hconst, hmut, if_false, Bool.false_eq_true] at hassign
      exact .inr ⟨by simp [Frame.binds, hconst, hmut], hassign⟩
    · simp only [hconst, hmut, if_false, if_true, Bool.false_eq_true] at hassign
      have hbinds : (m.frames.frame i).binds target.text = true := by simp [Frame.binds, hmut]
      refine .inl ⟨hbinds, fun _ => ⟨_, hassign, ?_, fun j hj => ?_⟩, fun h => ?_⟩
      · rw [frame_set, if_pos ⟨rfl, lt_size_of_binds hbinds⟩]
        simp [Frame.get?, Table.get?_put]
      · rw [frame_set, if_neg fun h => hj h.1.symm]
      · rw [hconst] at h
        cases h
  · simp only [hconst, if_true] at hassign
    refine .inl ⟨by simp [Frame.binds, hconst], fun h => ?_, fun _ => hassign⟩
    rw [hconst] at h
    cases h

/-! ### Behind the value -/

/-- What fits where an expression is evaluated, fits behind it as well. -/
lemma Fits.evaluated {scopes : List Scope} {n : Nat} {e : Expr OccurrenceId} (h : Fits m.frames scopes m.current)
    (he : Eval.evaluate n e m = .ok v m') : Fits m'.frames scopes m'.current ∧ m'.locals = m.locals := by
  have hgrown := (runs_grow n).evaluate e m
  rw [he] at hgrown
  have hcurrent : m'.current = m.current := hgrown.current
  refine ⟨?_, hgrown.locals⟩
  rw [hcurrent]
  exact h.grows hgrown.frames.grows

/-- What is found in the scopes is bound by the frame, or it is only declared, in the innermost one. -/
lemma Fits.finds {scopes : List Scope} (h : Fits fs scopes i) (hg : Guarded scopes)
    (hd : distance? scopes text = some d) :
    (fs.frame (fs.ancestor d i)).binds text = true ∨
      d = 0 ∧ ∃ scope ∈ scopes.head?, scope.get? text = some .declared := by
  obtain ⟨scope, hs, hhas⟩ := distance?_eq_some hd
  by_cases hdeclared : scope.get? text = some .declared
  · rcases scopes with _ | ⟨inner, outer⟩
    · cases hs
    · rcases d with _ | d
      · exact .inr ⟨rfl, scope, hs, hdeclared⟩
      · exact absurd hdeclared (hg.outer scope (List.mem_of_getElem? hs) text)
  · exact .inl ((h.chain_frame hs).2 text (get?_eq_defined hhas hdeclared))

/-! ### Sessions -/

variable {past : List (Expr OccurrenceId × Resolver)} {s : Session}

/-- **Assignments find their names.**  Whenever a run in a session evaluates an assignment with an entry, the entry is
the distance of the name among the scopes in which the assignment was resolved.  Once its value has been computed, it
finds the name in the frame that many steps out, so that it changes the value there or fails because the name is a
constant; or the assignment stands in the initializer of a declaration of that very name in the innermost scope, the
current frame does not bind it yet, and the assignment fails for that. -/
theorem Session.Reached.assignment_finds (h : Session.Reached past s) (fuel : Nat) (source : String) :
    ∀ p ∈ s.evaluations fuel (Scan.ofString source).tokens, ∀ target value d,
      p.1 = .assign target value → p.2.locals[target.id]? = some d →
        ∃ q, (p.1, q) ∈ past ++ s.resolutions (Scan.ofString source).tokens ∧
          distance? q.scopes target.text = some d ∧
          ∀ n v m, Eval.evaluate n value p.2 = .ok v m →
            AssignsIn (m.frames.ancestor d m.current) target v m ∨
              d = 0 ∧ (∃ scope ∈ q.scopes.head?, scope.get? target.text = some .declared) ∧
                (m.frames.frame m.current).binds target.text = false ∧
                Eval.assign target v m = .error (.error (.undefinedVariable target.text target.line)) m := by
  intro p hp target value d hassign hentry
  obtain ⟨⟨q, hq, hfits⟩, is, place, hsound⟩ := (h.mapped.submit fuel (scan_spelled source)).2 p hp
  have hpq := hsound p.1 q hq
  have hlooks : Looks p.1 target target.text := hassign ▸ .assign
  have hdistance : distance? q.scopes target.text = some d :=
    (hpq.placed.exact target target.text hlooks).symm.trans hentry
  refine ⟨q, hq, hdistance, fun n v m he => ?_⟩
  obtain ⟨hfits', hlocals⟩ := hfits.evaluated he
  rcases assign_cases (v := v) ((congrArg (·[target.id]?) hlocals).trans hentry) with hin | ⟨hfree, hfails⟩
  · exact .inl hin
  rcases hfits'.finds hpq.readable.guarded hdistance with hbinds | ⟨rfl, hdeclared⟩
  · rw [hbinds] at hfree
    cases hfree
  · exact .inr ⟨rfl, hdeclared, hfree, hfails⟩

/-- A variable of a block is assigned to behind its declaration. -/
theorem Session.assignment_finds_block : Session.Reached [] (Session.initial none) ∧
    ∃ p ∈ (Session.initial none).evaluations 4 (Scan.ofString "\x7blet a;a=a;\x7d").tokens,
      let target : Occurrence OccurrenceId := ⟨⟨"a", 1⟩, 1⟩
      let value : Expr OccurrenceId := .name .identifier ⟨⟨"a", 1⟩, 0⟩
      p.1 = .assign target value ∧ p.2.locals[target.id]? = some 0 ∧
        ∃ q : Resolver, distance? q.scopes target.text = some 0 ∧
          ∀ n v m, Eval.evaluate n value p.2 = .ok v m →
            AssignsIn m.current target v m ∨ ∃ scope ∈ q.scopes.head?, scope.get? target.text = some .declared := by
  have hfirst : ((Session.initial none).evaluations 4
      (Scan.ofString "\x7blet a;a=a;\x7d").tokens).head?.map (fun p => (p.1, p.2.locals[1]?)) =
        some (.assign ⟨⟨"a", 1⟩, 1⟩ (.name .identifier ⟨⟨"a", 1⟩, 0⟩), some 0) := by
    rw [Scan.ofString_eq_dispatch]
    cbv
  obtain ⟨p, hp, hpair⟩ := Option.map_eq_some_iff.1 hfirst
  obtain ⟨hassign, hentry⟩ := Prod.mk.inj hpair
  have hmem := List.mem_of_mem_head? hp
  obtain ⟨q, -, hdistance, hfinds⟩ :=
    (Session.Reached.initial none).assignment_finds 4 _ p hmem _ _ 0 hassign hentry
  refine ⟨Session.Reached.initial none, p, hmem, hassign, hentry, q, hdistance, fun n v m he => ?_⟩
  exact (hfinds n v m he).imp_right fun h => h.2.1

/-- In a block, a variable is assigned to in its own initializer.  The program is accepted, and the assignment has an
entry, but where that leads the name is not bound. -/
theorem Session.own_initializer_unbound :
    ∃ p ∈ (Session.initial none).evaluations 4 (Scan.ofString "\x7blet a=a=\"\";\x7d").tokens,
      let target : Occurrence OccurrenceId := ⟨⟨"a", 1⟩, 0⟩
      let value : Expr OccurrenceId := .literal (.string "")
      p.1 = .assign target value ∧ p.2.locals[target.id]? = some 0 ∧
        ∃ v m, Eval.evaluate 1 value p.2 = .ok v m ∧
          Eval.assign target v m = .error (.error (.undefinedVariable target.text target.line)) m := by
  have hfirst : ((Session.initial none).evaluations 4 (Scan.ofString "\x7blet a=a=\"\";\x7d").tokens).head?.map
      (fun p => (p.1, p.2.locals[0]?, (p.2.frames.frame p.2.current).binds "a")) =
        some (.assign ⟨⟨"a", 1⟩, 0⟩ (.literal (.string "")), some 0, false) := by
    rw [Scan.ofString_eq_dispatch]
    cbv
  obtain ⟨p, hp, hpair⟩ := Option.map_eq_some_iff.1 hfirst
  obtain ⟨hassign, hpair⟩ := Prod.mk.inj hpair
  obtain ⟨hentry, hfree⟩ := Prod.mk.inj hpair
  refine ⟨p, List.mem_of_mem_head? hp, hassign, hentry, .string "", p.2, rfl, ?_⟩
  have hentry' : p.2.locals[(⟨⟨"a", 1⟩, 0⟩ : Occurrence OccurrenceId).id]? = some 0 := hentry
  rcases assign_cases (v := .string "") hentry' with hin | ⟨-, hfails⟩
  · have hbound := hin.bound
    rw [show p.2.frames.ancestor 0 p.2.current = p.2.current from rfl, hfree] at hbound
    cases hbound
  · exact hfails

end ScriptLang

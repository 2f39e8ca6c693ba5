import ScriptLang.Proofs.Addressing.AcceptedPrograms
import ScriptLang.Proofs.Frames.Constancy
import ScriptLang.Proofs.Redeclaring.DefinitionRuns
import ScriptLang.Proofs.Submission
import ScriptLang.Proofs.Token.Dispatch

/-!
# Warnings of redeclarations predict failures

In a session of source texts every definition of a local name is at a site of a program that was accepted, and it
fails exactly if resolving that program has warned of the site.

* `Session.sites`, `Session.definitions` — the sites of a submitted program, and the definitions of its run;
* `Session.Declaring` — the sessions that can be reached, with the sites of all accepted programs;
* `Session.Declaring.failures_foreseen` — the theorem.
-/

namespace ScriptLang

open Grammar

/-- Accepted programs are regular. -/
lemma regular_of_resolve {tokens : List Token} {tree : Program Unit} {n : OccurrenceId} {res : Resolution}
    (hspelled : AllSpelled tokens) (hparse : Program.parse tokens = .ok tree)
    (hres : (Resolver.empty.resolve (tree.number n).1).1 = .ok res) : Stmt.RegularList (tree.number n).1 := by
  obtain ⟨k, -, hmapped⟩ := mapped_of_resolve hspelled hparse hres
  exact hmapped.regular

namespace Session

/-- The sites of a program, if a session accepts it. -/
def sites (tokens : List Token) (s : Session) : List Site :=
  match Program.parse tokens with
  | .error _ => []
  | .ok tree =>
    match (s.resolver.resolve (s.numbered tree)).1 with
    | .error _ => []
    | .ok _ => Stmt.sitesList none (s.numbered tree)

/-- The definitions of the run of a program, if a session accepts it. -/
def definitions (fuel : Nat) (install : Bool) (tokens : List Token) (s : Session) : List (Definition × Machine) :=
  match Program.parse tokens with
  | .error _ => []
  | .ok tree =>
    match (s.resolver.resolve (s.numbered tree)).1 with
    | .error _ => []
    | .ok res =>
      runDefinitions fuel (s.numbered tree) { s.machine with locals := tableWith install s.machine.locals res.locals }

/-- The sessions that start without code and take one source text after another, each with the sites of the programs
that it has accepted. -/
inductive Declaring : List Site → Session → Prop
  | initial (limit : Option Nat) : Declaring [] (initial limit)
  | submit {past : List Site} {s : Session} (fuel : Nat) (install : Bool) (source : String) :
    Declaring past s → Declaring (past ++ s.sites (Scan.ofString source).tokens)
      (s.submit fuel install (Scan.ofString source).tokens).2

variable {past : List Site} {s : Session} {fuel : Nat} {install : Bool} {tokens : List Token}

lemma Declaring.reachable (h : Declaring past s) : s.Reachable := by
  induction h with
  | initial limit => exact .initial limit
  | submit fuel install source _ ih => exact ih.submit fuel install _

/-- What is known of a submission to a session that is made of known code: its warnings are those of its sites, its
definitions are foreseen, and if it fails with a name declared already, then at one of them. -/
structure Foreseen (past : List Site) (fuel : Nat) (install : Bool) (tokens : List Token) (s : Session) : Prop where
  machine : (s.submit fuel install tokens).2.machine.MadeOf (Sited (past ++ s.sites tokens))
  warnings : ∀ warnings result, (s.submit fuel install tokens).1 = .ran warnings result →
    redeclared warnings = ((s.sites tokens).filter (·.Repeated)).map (·.name)
  definitions : ∀ p ∈ s.definitions fuel install tokens, p.1.Foreseen (past ++ s.sites tokens) p.2
  failure : ∀ warnings e statement, (s.submit fuel install tokens).1 = .ran warnings (.failed ⟨e, statement⟩) →
    ∀ name, Stop.Redeclares name (.error e) →
      ∃ p ∈ s.definitions fuel install tokens, p.1.name = name ∧ p.1.Fails p.2

/-- A submission that is not run has no sites and no definitions, and leaves the machine as it is. -/
lemma Foreseen.of_not_run (hm : s.machine.MadeOf (Sited past)) (hsites : s.sites tokens = [])
    (hdefinitions : s.definitions fuel install tokens = [])
    (hmachine : (s.submit fuel install tokens).2.machine = s.machine)
    (hran : ∀ warnings result, (s.submit fuel install tokens).1 ≠ .ran warnings result) :
    Foreseen past fuel install tokens s := by
  refine ⟨?_, fun _ _ h => absurd h (hran _ _), ?_, fun _ _ _ h => absurd h (hran _ _)⟩
  · rw [hmachine, hsites, List.append_nil]
    exact hm
  · rw [hdefinitions]
    exact List.forall_mem_nil _

/-- A program that is run is foreseen by what is known of the code of its session and by its own sites. -/
lemma foreseen_of_ran {tree : Program Unit} {res : Resolution} (hs : s.Reachable) (hm : s.machine.MadeOf (Sited past))
    (hspelled : AllSpelled tokens) (hparse : Program.parse tokens = .ok tree)
    (hres : (s.resolver.resolve (s.numbered tree)).1 = .ok res) : Foreseen past fuel install tokens s := by
  have hsites : s.sites tokens = Stmt.sitesList none (s.numbered tree) := by simp only [sites, hparse, hres]
  have hdefinitions : s.definitions fuel install tokens = runDefinitions fuel (s.numbered tree)
      { s.machine with locals := tableWith install s.machine.locals res.locals } := by
    simp only [definitions, hparse, hres]
  have hresolved := hres
  rw [hs.resolver] at hresolved
  obtain ⟨hcurrent, h0, -⟩ := hs.at_rest
  -- what the programs before were made of is still known, and this one adds its own sites
  have hstart : Machine.MadeOf (Sited (past ++ s.sites tokens))
      { s.machine with locals := tableWith install s.machine.locals res.locals } := by
    have himp : s.machine.MadeOf (Sited (past ++ s.sites tokens)) :=
      hm.imp fun d hd => ⟨hd.regular, fun _ hsite => List.mem_append_left _ (hd.sites hsite)⟩
    exact ⟨himp.size, himp.frames, himp.objects⟩
  have hstands : Stands none s.machine.frames s.machine.current := ⟨hcurrent.symm ▸ h0, hcurrent⟩
  obtain ⟨hmarks, hmade, hfails⟩ := runProgram_foreseen fuel (regular_of_resolve hspelled hparse hresolved)
    (hsites ▸ List.subset_append_right past _) hstart hstands
  refine ⟨?_, fun warnings result h => ?_, hdefinitions ▸ hmarks, fun warnings e statement h => ?_⟩
  · rw [submit_ran hparse hres]
    exact hmade
  · rw [submit_ran hparse hres] at h
    cases h
    rw [hsites]
    exact Resolving.resolve_reports hresolved
  · rw [submit_ran hparse hres] at h
    injection h with hwarnings hresult
    rw [hdefinitions]
    exact hfails e statement hresult

/-- **Submissions are foreseen** by sessions that are at rest and made of known code. -/
theorem foreseen_of_madeOf (hs : s.Reachable) (hm : s.machine.MadeOf (Sited past)) (hspelled : AllSpelled tokens) :
    Foreseen past fuel install tokens s := by
  rcases hparse : Program.parse tokens with ds | tree
  · have hsubmit : s.submit fuel install tokens = (.unreadable ds, s) := submit_unreadable hparse
    refine .of_not_run hm ?_ ?_ (congrArg (·.2.machine) hsubmit) fun _ _ h => ?_
    · simp only [sites, hparse]
    · simp only [definitions, hparse]
    · cases (congrArg Prod.fst hsubmit).symm.trans h
  rcases hres : (s.resolver.resolve (s.numbered tree)).1 with rejection | res
  · have hsubmit : s.submit fuel install tokens = (.rejected rejection, _) := submit_rejected hparse hres
    refine .of_not_run hm ?_ ?_ (congrArg (·.2.machine) hsubmit) fun _ _ h => ?_
    · simp only [sites, hparse, hres]
    · simp only [definitions, hparse, hres]
    · cases (congrArg Prod.fst hsubmit).symm.trans h
  exact foreseen_of_ran hs hm hspelled hparse hres

lemma Declaring.madeOf (h : Declaring past s) : s.machine.MadeOf (Sited past) := by
  induction h with
  | initial limit => exact initial_madeOf limit
  | submit fuel install source h ih => exact (foreseen_of_madeOf h.reachable ih (scan_spelled source)).machine

/-- **Warnings of redeclarations predict failures exactly.**  The warnings of an accepted program name the repeated
ones among its sites.  A definition in a scope is at a site of this or an earlier program, in another frame than the
global one, and fails exactly if the site is a repeated one.  If a run fails with a name declared already, then at a
definition that fails; and if the program is resolved without such a warning, this is a definition in the global frame,
or it is at a repeated site of a program that was accepted before. -/
theorem Declaring.failures_foreseen (h : Declaring past s) (fuel : Nat) (install : Bool) (source : String) :
    let tokens := (Scan.ofString source).tokens
    (∀ warnings result, (s.submit fuel install tokens).1 = .ran warnings result →
      redeclared warnings = ((s.sites tokens).filter (·.Repeated)).map (·.name)) ∧
    (∀ p ∈ s.definitions fuel install tokens,
      (p.1.frame = globalFrame ↔ p.1.front = none) ∧
        ∀ names, p.1.front = some names → ⟨names, p.1.name⟩ ∈ past ++ s.sites tokens ∧
          (p.1.Fails p.2 ↔ Site.Repeated ⟨names, p.1.name⟩)) ∧
    ∀ warnings name line statement,
      (s.submit fuel install tokens).1 =
          .ran warnings (.failed ⟨.identifierAlreadyDeclared name line, statement⟩) →
        ∃ p ∈ s.definitions fuel install tokens, p.1.name = ⟨name, line⟩ ∧ p.1.Fails p.2 ∧
          (redeclared warnings = [] → p.1.frame = globalFrame ∨
            ∃ names, p.1.front = some names ∧ ⟨names, p.1.name⟩ ∈ past ∧ Site.Repeated ⟨names, p.1.name⟩) := by
  intro tokens
  have hforeseen : Foreseen past fuel install tokens s :=
    foreseen_of_madeOf h.reachable h.madeOf (scan_spelled source)
  refine ⟨hforeseen.warnings, fun p hp => (hforeseen.definitions p hp).at_site,
    fun warnings name line statement hrun => ?_⟩
  obtain ⟨p, hp, hname, hfails⟩ := hforeseen.failure warnings _ statement hrun ⟨name, line⟩ rfl
  refine ⟨p, hp, hname, hfails, fun hquiet => ?_⟩
  obtain ⟨hglobal, hsite⟩ := (hforeseen.definitions p hp).at_site
  cases hfront : p.1.front with
  | none => exact .inl (hglobal.2 hfront)
  | some names =>
    obtain ⟨hmem, hiff⟩ := hsite names hfront
    have hrepeated := hiff.1 hfails
    refine .inr ⟨names, rfl, ?_, hrepeated⟩
    rcases List.mem_append.1 hmem with hmem | hmem
    · exact hmem
    · -- of a repeated site of its own the program would have been warned
      rw [hforeseen.warnings _ _ hrun, List.map_eq_nil_iff, List.filter_eq_nil_iff] at hquiet
      exact absurd (decide_eq_true hrepeated) (hquiet _ hmem)

/-- Two declarations of a name in a block: the second one fails. -/
theorem failures_foreseen_block : Declaring [] (Session.initial none) ∧
    ∃ p ∈ (Session.initial none).definitions 2 true (Scan.ofString "\x7blet a;let a;\x7d").tokens,
      p.1.name = ⟨"a", 1⟩ ∧ p.1.front = some ["a"] ∧ p.1.Fails p.2 := by
  have hlast : ((Session.initial none).definitions 2 true
      (Scan.ofString "\x7blet a;let a;\x7d").tokens).getLast?.map (fun p => (p.1.name, p.1.front)) =
        some (⟨"a", 1⟩, some ["a"]) := by
    rw [Scan.ofString_eq_dispatch]
    cbv
  obtain ⟨p, hp, hpair⟩ := Option.map_eq_some_iff.1 hlast
  obtain ⟨hname, hfront⟩ := Prod.mk.inj hpair
  have hmem := List.mem_of_getLast? hp
  obtain ⟨-, hlocal, -⟩ := (Declaring.initial none).failures_foreseen 2 true "\x7blet a;let a;\x7d"
  have hfails := ((hlocal p hmem).2 ["a"] hfront).2.2
  refine ⟨.initial none, p, hmem, hname, hfront, hfails ?_⟩
  rw [hname]
  exact List.mem_singleton.2 rfl

/-- A program without warnings that calls a function of an earlier one, which declares a name twice: the run fails, and
none of its definitions is in the global frame.  The earlier program was warned. -/
theorem unwarned_call_fails :
    let function := (Scan.ofString "function f() \x7blet a;let a;\x7d").tokens
    let call := (Scan.ofString "f();").tokens
    let first := (Session.initial none).submit 5 true function
    (∃ past, Declaring past first.2) ∧ first.1 = .ran [.redeclaration "a" 1] .completed ∧
      (first.2.submit 5 true call).1 = .ran [] (.failed
        ⟨.identifierAlreadyDeclared "a" 1, .expr (.call 1 (.name .identifier ⟨⟨"f", 1⟩, 0⟩) [])⟩) ∧
        ∀ p ∈ first.2.definitions 5 true call, p.1.frame ≠ globalFrame := by
  intro function call first
  have hruns : first.1 = .ran [.redeclaration "a" 1] .completed ∧
      (first.2.submit 5 true call).1 = .ran [] (.failed
        ⟨.identifierAlreadyDeclared "a" 1, .expr (.call 1 (.name .identifier ⟨⟨"f", 1⟩, 0⟩) [])⟩) ∧
        (first.2.definitions 5 true call).map (·.1.frame) = [1, 1] := by
    unfold first call function
    rw [Scan.ofString_eq_dispatch, Scan.ofString_eq_dispatch]
    refine ⟨?_, ?_, ?_⟩ <;> cbv
  obtain ⟨hfirst, hcall, hframes⟩ := hruns
  refine ⟨⟨_, .submit 5 true _ (.initial none)⟩, hfirst, hcall, fun p hp => ?_⟩
  have hmem := List.mem_map_of_mem (f := (·.1.frame)) hp
  rw [hframes] at hmem
  intro hglobal
  rw [hglobal] at hmem
  simp [globalFrame] at hmem

end Session

end ScriptLang

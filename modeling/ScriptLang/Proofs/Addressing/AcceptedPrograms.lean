import ScriptLang.Proofs.Addressing.Lockstep
import ScriptLang.Proofs.Addressing.TopLevel

/-!
# Programs that are fit to run

What holds of the moments of a whole program that resolving has accepted, and of a run of it.

* `Program.Mapped`, `mapped_of_resolve` — the numbers, scopes and entries of an accepted program;
* `runMoments_fitting` — a run of it keeps frames and scopes side by side.
-/

namespace ScriptLang

open Resolving Grammar

/-! ### Accepted programs -/

/-- The moment has the scopes that its uses of names are known to have, the table is exact for it, and what
it reads is defined where it is found. -/
structure Sound (is : List OccurrenceId) (place : OccurrenceId → List Scope) (L : Locals)
    (e : Expr OccurrenceId) (q : Resolver) : Prop where
  placed : Placed is place L e q
  readable : Readable e q

/-- A regular program with the numbers `is`, which was resolved with the moments `C` and the table `L`. -/
structure Program.Mapped (program : Program OccurrenceId) (is : List OccurrenceId) (C : Moments)
    (L : Locals) : Prop where
  regular : Stmt.RegularList program
  passes : ∃ r', (stmtsT .topLevel program).Passes C .empty r'
  outside : ∀ k, k ∉ is → L[k]? = none
  sound : ∃ place, ∀ L', AgreeOn is L' L → ∀ e q, C e q → Sound is place L' e q

/-- **Accepted programs are mapped**: the numbers are fresh, and the table is exact at every moment. -/
theorem mapped_of_resolve {ts : List Token} {tree : Program Unit} {n : OccurrenceId} {res : Resolution}
    (hspelled : AllSpelled ts) (hparse : Program.parse ts = .ok tree)
    (hres : (Resolver.empty.resolve (tree.number n).1).1 = .ok res) :
    ∃ k, (tree.number n).2 = n + k ∧ (tree.number n).1.Mapped (List.range' n k)
      (fun e q => (e, q) ∈ Resolver.empty.moments (tree.number n).1) res.locals := by
  obtain ⟨r', htop, rfl⟩ := resolve_ok_iff.1 hres
  obtain ⟨hrun, htrace⟩ := topLevel_ok htop
  obtain ⟨hforget, hids, hnext⟩ := Stmt.numberList_spec n tree
  have hregular : Stmt.RegularList (tree.number n).1 := by
    rw [← Stmt.regular_relabelList id fun _ => ()]
    show Stmt.RegularList (Stmt.relabelList id (fun _ => ()) (Stmt.numberList tree n).1)
    rw [hforget]
    exact (parse_ok_iff.1 hparse).regular fun t ht => hspelled t (List.takeWhile_subset _ ht)
  have hpass : (stmtsT .topLevel (tree.number n).1).Passes (fun _ _ => True) .empty r' :=
    ⟨hrun, fun _ _ => trivial⟩
  obtain ⟨-, hplaces⟩ := stmtsT_places .topLevel (tree.number n).1 .empty r' hpass
  have hreadable := stmtsT_readable (r := .empty) (List.forall_mem_nil _) .topLevel _ hregular hpass
  rw [show ids (Stmt.occurrencesList (tree.number n).1) = _ from hids] at hplaces
  refine ⟨_, hnext, hregular, ⟨r', hrun, fun p hp => htrace ▸ hp⟩, fun k hk => ?_, ?_⟩
  · exact resolve_outside hres (hids ▸ hk)
  · obtain ⟨place, hplace⟩ := hplaces (List.nodup_range' ..) fun _ _ => Std.TreeMap.getElem?_emptyc
    refine ⟨place, fun L' hL e q hq => ?_⟩
    rw [htrace] at hq
    exact ⟨(hplace L' hL).2 _ hq, hreadable.2 _ hq⟩

/-! ### Runs -/

variable {C : Moments}

/-- **A run of a resolved program keeps frames and scopes side by side.** -/
theorem runMoments_fitting (fuel : Nat) : ∀ {program : Program OccurrenceId} {r r' : Resolver} {m : Machine},
    Stmt.RegularList program → (stmtsT .topLevel program).Passes C r r' → r.scopes = [] → m.Good C →
    m.current = globalFrame →
      (∀ p ∈ runMoments fuel program m, Fitting C p.1 p.2 ∧ p.2.locals = m.locals) ∧
        After C m (runProgram fuel program m).2
  | [], _, _, m, _, _, _, hm, _ => ⟨List.forall_mem_nil _, .refl hm⟩
  | s :: ss, r, r', m, ⟨hs, hss⟩, h, hr, hm, hcur => by
    rw [stmtsT, Traced.passes_bind] at h
    obtain ⟨q, h1, h2⟩ := h
    have hq : q.scopes = [] := by rw [stmtT_scopes s h1, hr, s.scopesAfter_nil]
    obtain ⟨htrace, hrun⟩ := (runs_well C fuel).2.1 s .topLevel r q m hs h1 hm (hr ▸ hcur)
    rw [runMoments, Observer.moments, runProgram, ← Observer.expressions.execute_run _ ()]
    rcases he : (Eval.executeT fuel s).run m with ⟨flow, m'⟩ | ⟨stop, m'⟩
    · rw [he] at hrun
      obtain ⟨hafter, -⟩ := hrun
      obtain ⟨hrest, hafter'⟩ := runMoments_fitting fuel hss h2 hq hafter.good (hafter.current.trans hcur)
      refine ⟨List.forall_mem_append.2 ⟨htrace, fun p hp => ?_⟩, hafter.trans hafter'⟩
      exact ⟨(hrest p hp).1, (hrest p hp).2.trans hafter.locals⟩
    · rw [he] at hrun
      refine ⟨List.forall_mem_append.2 ⟨htrace, List.forall_mem_nil _⟩, ?_⟩
      cases stop <;> exact hrun

end ScriptLang

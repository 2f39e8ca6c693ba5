import ScriptLang.Proofs.Addressing.AcceptedPrograms
import ScriptLang.Proofs.Renaming.RenamedCode
import ScriptLang.Proofs.Renaming.RenamedRuns
import ScriptLang.Proofs.Renaming.RenamedScopes
import ScriptLang.Proofs.Splitting.Submissions
import ScriptLang.Proofs.Token.Dispatch

/-!
# Local names do not matter

A program in which a local name is renamed is resolved with the same table, and runs in the same way from every
session: the same output, the same end, and the same global names.

* `Session.Reachable.aligned` — nothing that a session holds has to do with a renaming to come;
* `Session.Reachable.locals_none` — its table has no entries for a program to come;
* `RunsAlike` — what is the same of two runs;
* `Session.Reachable.local_names_immaterial` — the theorem.
-/

namespace ScriptLang

/-! ### Machines between programs -/

variable {ρ : Renaming} {w : Layout} {m m' : Machine}

lemma initial_aligned (limit : Option Nat) (hρ : ρ.locals = ∅) :
    (Machine.initial limit).Aligned ρ (.away 1) (Machine.initial limit) := by
  have hframes : (Machine.initial limit).frames.Aligned ρ (.away 1) (Machine.initial limit).frames := by
    refine ⟨rfl, rfl, fun i => ?_, fun i => ?_⟩
    · rw [frame_initial]
      exact empty_aligned none
    · rw [Frames.parent?, frame_initial]
      exact Layout.place_away ..
  exact ⟨hframes, rfl, fun _ => .nil, rfl, rfl, Nat.one_pos, rfl, hρ.symm, hρ.symm⟩

/-- Away from the scope, a machine is aligned with itself, with any table. -/
lemma Machine.Aligned.away (h : m.Aligned ρ w m') (ρ' : Renaming) :
    Machine.Aligned ρ' (.away w.length) { m with locals := ρ'.locals } { m with locals := ρ'.locals } := by
  refine ⟨h.frames.away, rfl, fun id => (h.properties id).self fun _ _ hv => hv.away, rfl, rfl, ?_, rfl, rfl, rfl⟩
  rw [Layout.length_away]
  exact h.placed

lemma Machine.Aligned.globals (h : m.Aligned ρ w m') : m'.globals = m.globals ∧ m'.constants = m.constants := by
  have hframe := h.frames.frame globalFrame
  rw [h.frames.place_globalFrame] at hframe
  unfold Machine.globals Machine.constants Table.sortedNames
  rw [(Table.rekeyed_none.1 hframe.mutables).names, (Table.rekeyed_none.1 hframe.constants).names]
  exact ⟨rfl, rfl⟩

/-- A renaming that concerns no code. -/
def Renaming.idle (L : Locals) : Renaming := ⟨L, "", ""⟩

lemma idle_plain (L : Locals) : (Renaming.idle L).Plain := by
  have hthis : "" ≠ "this" := by decide
  have hsuper : "" ≠ "super" := by decide
  exact ⟨hthis, hsuper, hthis, hsuper⟩

/-- A run of any code leaves a machine that is aligned with itself. -/
lemma run_aligned {L : Locals} {ρ' : Renaming} (fuel : Nat) (program : Program OccurrenceId) (h : m.Aligned ρ w m')
    (hρ' : ρ'.locals = (runProgram fuel program { m with locals := L }).2.locals) :
    ∃ n, (runProgram fuel program { m with locals := L }).2.Aligned ρ' (.away n)
      (runProgram fuel program { m with locals := L }).2 := by
  obtain ⟨-, w', ha⟩ := runProgram_parallel (idle_plain L) fuel (Stmt.alignedList_self _ program)
    (h.away (.idle L)) (Layout.place_away ..)
  have haligned := ha.aligned.away ρ'
  rw [hρ'] at haligned
  exact ⟨w'.length, haligned⟩

namespace Session

variable {s : Session}

/-- **Nothing that a session holds has to do with a renaming to come.** -/
lemma Reachable.aligned (h : Reachable s) : ∀ ρ : Renaming, ρ.locals = s.machine.locals →
    ∃ n, s.machine.Aligned ρ (.away n) s.machine := by
  induction h with
  | initial limit => exact fun ρ hρ => ⟨1, initial_aligned limit hρ⟩
  | @submit s fuel install tokens _ ih =>
    rcases hparse : Program.parse tokens with ds | tree
    · rw [submit_unreadable hparse]
      exact ih
    rcases hres : (s.resolver.resolve (s.numbered tree)).1 with rejection | res
    · rw [submit_rejected hparse hres]
      exact ih
    · rw [submit_ran hparse hres]
      obtain ⟨n, hm⟩ := ih (.idle s.machine.locals) rfl
      exact fun ρ hρ => run_aligned fuel _ hm hρ

/-- The table of a session has no entries for a program to come. -/
lemma Reachable.locals_none (h : Reachable s) : ∀ k ≥ s.nextId, s.machine.locals[k]? = none := by
  induction h with
  | initial limit => exact fun _ _ => Std.TreeMap.getElem?_emptyc
  | @submit s fuel install tokens hs ih =>
    rcases hparse : Program.parse tokens with ds | tree
    · rw [submit_unreadable hparse]
      exact ih
    have hle := le_number s.nextId tree
    rcases hres : (s.resolver.resolve (s.numbered tree)).1 with rejection | res
    · rw [submit_rejected hparse hres]
      exact fun k hk => ih k (Nat.le_trans hle hk)
    · rw [submit_ran hparse hres]
      intro k hk
      have hold : s.machine.locals[k]? = none := ih k (Nat.le_trans hle hk)
      have hnew : res.locals[k]? = none := by
        rw [hs.resolver] at hres
        exact resolve_outside hres fun hmem => Nat.not_lt.2 hk ((mem_ids_number ..).1 hmem).2
      have hlocals : (s.runWith fuel install tree res.locals).2.locals =
          tableWith install s.machine.locals res.locals :=
        (run_self fuel hs.alike hle (number_below s.nextId tree)).2
      rw [show (s.runWith fuel install tree res.locals).2.locals[k]? = _ from congrArg (·[k]?) hlocals,
        getElem?_tableWith, hold, hnew]
      cases install <;> rfl

end Session

/-! ### The theorem -/

/-- The same end, the same output and the same global names. -/
structure RunsAlike (r r' : RunResult × Machine) : Prop where
  result : r.1.Matches r'.1
  sink : r'.2.sink = r.2.sink
  globals : r'.2.globals = r.2.globals
  constants : r'.2.constants = r.2.constants

lemma Kind.Spells.plain {y : String} (h : Kind.identifier.Spells y) : y ≠ "this" ∧ y ≠ "super" :=
  ⟨h .thisKw, h .superKw⟩

namespace Session

variable {s : Session} {source x y : String} {tree : Program Unit} {res : Resolution}
  {program' : Program OccurrenceId}

/-- For the uses of names in a program, the table of the program and that of the session behind it agree. -/
lemma Reachable.install_agrees (h : Reachable s) {k : OccurrenceId}
    (hk : k ∈ ids (Stmt.occurrencesList (s.numbered tree))) (L : Locals) :
    (s.machine.install L).locals[k]? = L[k]? := by
  show (s.machine.locals ∪ L)[k]? = L[k]?
  rw [Std.TreeMap.getElem?_union, h.locals_none k ((mem_ids_number ..).1 hk).1, Option.or_none]

/-- A program that was read and resolved without a warning can be renamed. -/
lemma Reachable.fit (h : Reachable s) (hparse : Program.parse (Scan.ofString source).tokens = .ok tree)
    (hres : (Resolver.empty.resolve (s.numbered tree)).1 = .ok res)
    (hwarned : ∀ name line, .redeclaration name line ∉ res.warnings) (hy : y ∉ Program.names (s.numbered tree)) :
    Stmt.FitList ⟨res.locals, x, y⟩ (s.machine.install res.locals).locals (s.numbered tree) := by
  obtain ⟨k, -, hmapped⟩ := mapped_of_resolve (scan_spelled source) hparse hres
  obtain ⟨hdeclared, hused⟩ := not_or.1 (mt List.mem_append.2 hy)
  refine ⟨hmapped.regular, fun o ho => ⟨fun htext => hused ?_, ?_⟩, hdeclared,
    Resolving.distinct_of_resolve hres hwarned⟩
  · exact List.mem_map.2 ⟨o, ho, htext⟩
  · exact h.install_agrees (List.mem_map_of_mem ho) res.locals

/-- **Local names do not matter.**  In a program that was read from a source text and resolved without a warning of
a second declaration, let a name that is declared in a block or a function be renamed, in its declaration and in
the uses that mean it, to an identifier that occurs nowhere in the program.  The renamed program is resolved with
the same table.  Run from the same session, with any fuel, both write the same and leave the same global names;
and both are complete, or run out of fuel, or fail with the same error but for the name in it. -/
theorem Reachable.local_names_immaterial (h : Reachable s)
    (hparse : Program.parse (Scan.ofString source).tokens = .ok tree)
    (hresolve : (s.resolver.resolve (s.numbered tree)).1 = .ok res)
    (hwarned : ∀ name line, .redeclaration name line ∉ res.warnings)
    (hy : Kind.identifier.Spells y) (hfresh : y ∉ Program.names (s.numbered tree))
    (hrenames : Program.Renames ⟨res.locals, x, y⟩ (s.numbered tree) program') :
    ∃ res', (s.resolver.resolve program').1 = .ok res' ∧ res'.locals = res.locals ∧
      ∀ fuel, RunsAlike (runProgram fuel (s.numbered tree) (s.machine.install res.locals))
        (runProgram fuel program' (s.machine.install res'.locals)) := by
  rw [h.resolver] at hresolve ⊢
  let ρ : Renaming := ⟨res.locals, x, y⟩
  let L := (s.machine.install res.locals).locals
  have hfit : Stmt.FitList ρ L (s.numbered tree) := h.fit hparse hresolve hwarned hfresh
  have hold := hrenames.old_plain hfit
  have hplain : (ρ.over L).Plain := ⟨hold.1, hold.2, hy.plain.1, hy.plain.2⟩
  have haligned : Stmt.AlignedList (ρ.over L) none (s.numbered tree) program' := hrenames.aligned hfit
  have hnodup : (ids (Stmt.occurrencesList (s.numbered tree))).Nodup := by
    unfold numbered Program.number
    rw [(Stmt.numberList_spec s.nextId tree).ids]
    exact List.nodup_range' ..
  obtain ⟨res', hres', hlocals⟩ := Resolving.resolve_aligned hplain haligned hnodup hresolve
    fun k hk => h.install_agrees hk res.locals
  refine ⟨res', hres', hlocals, fun fuel => ?_⟩
  rw [hlocals]
  obtain ⟨n, hm⟩ := h.aligned (.idle s.machine.locals) rfl
  obtain ⟨hresult, w, ha⟩ := runProgram_parallel hplain fuel haligned (hm.away (ρ.over L)) (Layout.place_away ..)
  exact ⟨hresult, ha.aligned.sink, ha.aligned.globals.1, ha.aligned.globals.2⟩

/-- A variable in a block, under the name of a global one or under another name. -/
def shadowing (name : String) : Program OccurrenceId :=
  [.letVar ⟨"a", 1⟩ none,
    .block [.letVar ⟨name, 1⟩ (some (.literal (.bool true))), .print (.name .identifier ⟨⟨name, 1⟩, 0⟩)]]

/-- A variable that hides a global one gets a name of its own. -/
theorem local_names_immaterial_shadowing :
    ∃ res', ((initial none).resolver.resolve (shadowing "b")).1 = .ok res' ∧ res'.locals = {(0, 0)} ∧
      ∀ fuel, RunsAlike (runProgram fuel (shadowing "a") ((initial none).machine.install {(0, 0)}))
        (runProgram fuel (shadowing "b") ((initial none).machine.install res'.locals)) := by
  have hparse : Program.parse (Scan.ofString "let a; { let a = true; print a; }").tokens =
      .ok (Stmt.relabelList id (fun _ => ()) (shadowing "a")) := by
    rw [Scan.ofString_eq_dispatch]
    cbv
  have hnumbered : (initial none).numbered (Stmt.relabelList id (fun _ => ()) (shadowing "a")) =
      shadowing "a" := by cbv
  have hresolve : ((initial none).resolver.resolve (shadowing "a")).1 = .ok ⟨{(0, 0)}, []⟩ := by cbv
  have hidentifier : Kind.identifier.Spells "b" := fun w => by cases w <;> decide
  have hrenames : Program.Renames ⟨{(0, 0)}, "a", "b"⟩ (shadowing "a") (shadowing "b") :=
    @Program.Renames.mk _ [_] _ _ [] (.scope ⟨_, List.mem_cons_self, rfl⟩)
  rw [← hnumbered] at hresolve hrenames ⊢
  exact (Reachable.initial none).local_names_immaterial hparse hresolve (fun _ _ => List.not_mem_nil) hidentifier
    (by decide) hrenames

end Session

end ScriptLang

import Mathlib
import ScriptLang.Proofs.Addressing.AcceptedPrograms
import ScriptLang.Proofs.Token.Spelling
import ScriptLang.Proofs.Submission
import ScriptLang.Proofs.Token.Dispatch

/-!
# Lexical addressing is sound

A session takes programs in the form of source text.  Whenever one of its runs evaluates an expression, the
frames from the current one out to the global one are the scopes around the place of the expression, one
frame for each, and behind them the global frame.  So what has an entry in the table is found.

* `Session.resolutions`, `Session.evaluations` — the moments of resolving and of running a program;
* `Session.Reached` — the sessions that can be reached, with all moments that resolving has passed;
* `Session.Mapped`, `Reached.mapped` — the invariant of these sessions;
* `Addressed`, `addressing_sound` — what holds whenever an expression is evaluated.
-/

namespace ScriptLang

open Resolving Grammar

/-! ### Moments of a program in a session -/

namespace Session

/-- The moments that resolving a program in a session passes, if the program is accepted. -/
def resolutions (tokens : List Token) (s : Session) : List (Expr OccurrenceId × Resolver) :=
  match Program.parse tokens with
  | .error _ => []
  | .ok tree =>
    let (program, _) := tree.number s.nextId
    match (s.resolver.resolve program).1 with
    | .error _ => []
    | .ok _ => s.resolver.moments program

/-- The moments that running a program in a session passes, if the program is accepted. -/
def evaluations (fuel : Nat) (tokens : List Token) (s : Session) : List (Expr OccurrenceId × Machine) :=
  match Program.parse tokens with
  | .error _ => []
  | .ok tree =>
    let (program, _) := tree.number s.nextId
    match (s.resolver.resolve program).1 with
    | .error _ => []
    | .ok r => runMoments fuel program (s.machine.install r.locals)

/-- The sessions that start without code and take one source text after another, each with the moments that
resolving has passed so far. -/
inductive Reached : List (Expr OccurrenceId × Resolver) → Session → Prop
  | initial (limit : Option Nat) : Reached [] (initial limit)
  | submit {past : List (Expr OccurrenceId × Resolver)} {s : Session} (fuel : Nat) (source : String) :
    Reached past s → Reached (past ++ s.resolutions (Scan.ofString source).tokens)
      (s.submit fuel true (Scan.ofString source).tokens).2

/-! ### The invariant -/

/-- The machine of the session is good, between programs the global frame is current, and the table is
exact at all moments so far; the numbers from the next free one on are not in use. -/
structure Mapped (past : List (Expr OccurrenceId × Resolver)) (s : Session) : Prop where
  resolver : s.resolver = .empty
  good : s.machine.Good fun e q => (e, q) ∈ past
  current : s.machine.current = globalFrame
  fresh : ∀ k, s.nextId ≤ k → s.machine.locals[k]? = none
  sound : ∃ place, ∀ e q, (e, q) ∈ past → Sound (List.range s.nextId) place s.machine.locals e q

end Session

lemma Looks.mem_occurrences {e : Expr OccurrenceId} {use : Occurrence OccurrenceId} {text : String}
    (h : Looks e use text) : use ∈ e.occurrences := by
  rcases h with ⟨h⟩ | _
  · cases h <;> exact List.mem_singleton.2 rfl
  · exact List.mem_append_right _ (List.mem_singleton_self _)

lemma Sound.congr {is js : List OccurrenceId} {place place' : OccurrenceId → List Scope} {L L' : Locals}
    {e : Expr OccurrenceId} {q : Resolver} (h : Sound is place L e q) (hs : is ⊆ js)
    (hp : ∀ k ∈ is, place' k = place k) (hL : AgreeOn is L' L) : Sound js place' L' e q := by
  have hplaced := h.placed.congr hs hp
  refine ⟨⟨hplaced.place, fun use text hr => ?_⟩, h.readable⟩
  rw [hL _ (h.placed.place use hr.mem_occurrences).1]
  exact h.placed.exact use text hr

lemma initial_good (C : Moments) (limit : Option Nat) : (Machine.initial limit).Good C := by
  refine ⟨Nat.one_pos, fun i name v h => ?_, fun id name v h => ?_⟩
  · rw [frame_initial] at h
    rcases h with h | h <;> cases h
  · cases h

variable {past new : List (Expr OccurrenceId × Resolver)} {s : Session} {program : Program OccurrenceId}
  {L : Locals} {k : Nat}

namespace Session

lemma mapped_initial (limit : Option Nat) : (initial limit).Mapped [] :=
  ⟨rfl, initial_good _ limit, rfl, fun _ _ => Std.TreeMap.getElem?_emptyc,
    fun _ => [], fun _ _ h => absurd h List.not_mem_nil⟩

/-- The invariant holds again as soon as the table of an accepted program is installed. -/
lemma Mapped.install (h : s.Mapped past)
    (hp : program.Mapped (List.range' s.nextId k) (fun e q => (e, q) ∈ new) L) :
    Mapped (past ++ new) ⟨s.nextId + k, .empty, s.machine.install L⟩ := by
  have hunion : ∀ i, (s.machine.locals ∪ L)[i]? = L[i]?.or s.machine.locals[i]? :=
    fun i => Std.TreeMap.getElem?_union
  have hgood : s.machine.Good fun e q => (e, q) ∈ past ++ new :=
    h.good.imp fun _ _ hq => List.mem_append_left _ hq
  refine ⟨rfl, ⟨hgood.size, hgood.frames, hgood.objects⟩, h.current, fun i hi => ?_, ?_⟩
  · show (s.machine.locals ∪ L)[i]? = none
    rw [hunion, h.fresh i (Nat.le_trans (Nat.le_add_right _ k) hi), hp.outside i]
    · rfl
    · rw [List.mem_range'_1]
      exact fun hmem => Nat.not_lt.2 hi hmem.2
  · obtain ⟨place, hold⟩ := h.sound
    obtain ⟨place', hnew⟩ := hp.sound
    refine ⟨fun i => if i < s.nextId then place i else place' i, fun e q hq => ?_⟩
    rcases List.mem_append.1 hq with hq | hq
    · -- the numbers of this program are not those of the programs before it
      refine (hold e q hq).congr (List.range_subset.2 (Nat.le_add_right _ k)) (fun i hi => ?_) fun i hi => ?_
      · exact if_pos (List.mem_range.1 hi)
      · show (s.machine.locals ∪ L)[i]? = _
        rw [hunion, hp.outside i, Option.none_or]
        rw [List.mem_range'_1]
        exact fun hmem => Nat.not_lt.2 hmem.1 (List.mem_range.1 hi)
    · have hagree : AgreeOn (List.range' s.nextId k) (s.machine.locals ∪ L) L := fun i hi => by
        rw [hunion, h.fresh i (List.mem_range'_1.1 hi).1, Option.or_none]
      refine (hnew _ hagree e q hq).congr (fun i hi => ?_) (fun i hi => ?_) fun i _ => rfl
      · exact List.mem_range.2 (List.mem_range'_1.1 hi).2
      · exact if_neg (Nat.not_lt.2 (List.mem_range'_1.1 hi).1)

/-- The run of a program after its table was installed, and the session behind it. -/
lemma Mapped.run {is : List OccurrenceId} {C : Moments} (fuel : Nat) (h : s.Mapped past)
    (hp : program.Mapped is C L) (hC : ∀ e q, C e q → (e, q) ∈ past) :
    (∀ p ∈ runMoments fuel program s.machine,
      Fitting (fun e q => (e, q) ∈ past) p.1 p.2 ∧ p.2.locals = s.machine.locals) ∧
      Mapped past { s with machine := (runProgram fuel program s.machine).2 } := by
  obtain ⟨r', hpass⟩ := hp.passes
  obtain ⟨hfit, hafter⟩ := runMoments_fitting fuel hp.regular (hpass.mono hC) rfl h.good h.current
  refine ⟨hfit, h.resolver, hafter.good, hafter.current.trans h.current, ?_, ?_⟩
  · exact fun i hi => (congrArg (·[i]?) hafter.locals).trans (h.fresh i hi)
  · obtain ⟨place, hsound⟩ := h.sound
    exact ⟨place, fun e q hq => hafter.locals.symm ▸ hsound e q hq⟩

/-! ### The moments of a submission -/

section Moments

variable {tokens : List Token} {tree : Program Unit}

lemma moments_unreadable (s : Session) (fuel : Nat) {ds : List Diagnostic} (hparse : Program.parse tokens = .error ds) :
    s.resolutions tokens = [] ∧ s.evaluations fuel tokens = [] := by
  unfold resolutions evaluations
  rw [hparse]
  exact ⟨rfl, rfl⟩

lemma moments_rejected (fuel : Nat) {rejection : Rejection} (hparse : Program.parse tokens = .ok tree)
    (hres : (s.resolver.resolve (s.numbered tree)).1 = .error rejection) :
    s.resolutions tokens = [] ∧ s.evaluations fuel tokens = [] := by
  unfold numbered at hres
  rcases hnum : tree.number s.nextId with ⟨program, n'⟩
  rw [hnum] at hres
  unfold resolutions evaluations
  simp only [hparse, hnum, hres, and_self]

lemma moments_ran (fuel : Nat) {res : Resolution} (hparse : Program.parse tokens = .ok tree)
    (hres : (s.resolver.resolve (s.numbered tree)).1 = .ok res) :
    s.resolutions tokens = s.resolver.moments (s.numbered tree) ∧
      s.evaluations fuel tokens = runMoments fuel (s.numbered tree) (s.machine.install res.locals) := by
  unfold numbered at *
  rcases hnum : tree.number s.nextId with ⟨program, n'⟩
  rw [hnum] at hres
  unfold resolutions evaluations
  simp only [hparse, hnum, hres, and_self]

end Moments

/-- A program in a session with the invariant: its run keeps frames and scopes side by side, with a table
that is exact at all moments, and behind it the invariant holds. -/
lemma Mapped.submit (h : s.Mapped past) (fuel : Nat) {tokens : List Token} (hspelled : AllSpelled tokens) :
    (s.submit fuel true tokens).2.Mapped (past ++ s.resolutions tokens) ∧
      ∀ p ∈ s.evaluations fuel tokens,
        Fitting (fun e q => (e, q) ∈ past ++ s.resolutions tokens) p.1 p.2 ∧
          ∃ is place, ∀ e q, (e, q) ∈ past ++ s.resolutions tokens → Sound is place p.2.locals e q := by
  have hsnd : ∀ program, (s.resolver.resolve program).2 = .empty := fun _ =>
    resolve_snd (congrArg Resolver.scopes h.resolver)
  rcases hparse : Program.parse tokens with ds | tree
  · obtain ⟨hr, he⟩ := moments_unreadable s fuel hparse
    rw [submit_unreadable hparse, hr, he, List.append_nil]
    exact ⟨h, List.forall_mem_nil _⟩
  rcases hres : (s.resolver.resolve (s.numbered tree)).1 with rejection | res
  · obtain ⟨hr, he⟩ := moments_rejected fuel hparse hres
    rw [submit_rejected hparse hres, hr, he, List.append_nil]
    refine ⟨?_, List.forall_mem_nil _⟩
    have hle : s.nextId ≤ (tree.number s.nextId).2 :=
      Nat.le.intro (Stmt.numberList_spec s.nextId tree).next.symm
    obtain ⟨place, hsound⟩ := h.sound
    exact ⟨hsnd _, h.good, h.current, fun i hi => h.fresh i (Nat.le_trans hle hi), place,
      fun e q hq => (hsound e q hq).congr (List.range_subset.2 hle) (fun _ _ => rfl) fun _ _ => rfl⟩
  · obtain ⟨hr, he⟩ := moments_ran fuel hparse hres
    rw [submit_ran hparse hres, hr, he, hsnd, h.resolver]
    rw [h.resolver] at hres
    obtain ⟨k, hnext, hp⟩ := mapped_of_resolve hspelled hparse hres
    rw [hnext]
    have hinstalled := h.install hp
    obtain ⟨hfit, hmapped⟩ := hinstalled.run fuel hp fun _ _ hq => List.mem_append_right _ hq
    refine ⟨hmapped, fun p hmem => ⟨(hfit p hmem).1, ?_⟩⟩
    obtain ⟨place, hsound⟩ := hinstalled.sound
    exact ⟨_, place, fun e q hq => (hfit p hmem).2.symm ▸ hsound e q hq⟩

lemma Reached.mapped (h : Reached past s) : s.Mapped past := by
  induction h with
  | initial limit => exact mapped_initial limit
  | submit fuel source _ ih => exact (ih.submit fuel (scan_spelled source)).1

end Session

/-! ### The theorem -/

/-- What holds when an expression is evaluated that was resolved in the given scopes: the chain of frames
consists of a frame for each scope, in the same order and with the names that the scope defines, and of the
global frame behind them.  If the expression reads a variable, the table has the distance of its name; the
frame as many steps out stands in front of the global one and binds the name, and the read succeeds. -/
structure Addressed (scopes : List Scope) (e : Expr OccurrenceId) (m : Machine) : Prop where
  length : (m.frames.chain m.current).length = scopes.length + 1
  last : (m.frames.chain m.current).getLast? = some globalFrame
  frames : ∀ (d : Nat) (scope : Scope), scopes[d]? = some scope →
    ∃ i, (m.frames.chain m.current)[d]? = some i ∧
      ∀ name, scope.get? name = some .defined → (m.frames.frame i).binds name = true
  entry : ∀ use text, Reads e use text → m.locals[use.id]? = distance? scopes use.text
  reads : ∀ use text, Reads e use text → ∀ d, m.locals[use.id]? = some d →
    d < scopes.length ∧ (m.frames.chain m.current)[d]? = some (m.frames.ancestor d m.current) ∧
      (m.frames.frame (m.frames.ancestor d m.current)).binds use.text = true ∧
      ∃ v, Eval.lookUp use m = .ok v m

/-- A name is found in the frame at the distance of the use. -/
lemma lookUpAs_ok {m : Machine} {use : Occurrence OccurrenceId} {name : String} {d : Nat} {v : Value}
    (hd : m.locals[use.id]? = some d) (hv : (m.frames.frame (m.frames.ancestor d m.current)).get? name = some v) :
    Eval.lookUpAs use name m = .ok v m := by
  have hfound : m.frames.getAt m.current d name = .ok v := by rw [Frames.getAt, hv]
  unfold Eval.lookUpAs
  rw [Traced.bind_get, hd]
  show Eval.ofFrames use.line (m.frames.getAt m.current d name) m = _
  rw [hfound]
  rfl

lemma lookUp_ok {m : Machine} {use : Occurrence OccurrenceId} {d : Nat} (hd : m.locals[use.id]? = some d)
    (hb : (m.frames.frame (m.frames.ancestor d m.current)).binds use.text = true) :
    ∃ v, Eval.lookUp use m = .ok v m := by
  obtain ⟨v, hv⟩ := get?_of_binds hb
  exact ⟨v, lookUpAs_ok hd hv⟩

lemma addressed_of_fits {m : Machine} {e : Expr OccurrenceId} {q : Resolver}
    (hf : Fits m.frames q.scopes m.current) (he : Exact m.locals e q) (hr : Readable e q) :
    Addressed q.scopes e m := by
  have hentry : ∀ use text, Reads e use text → m.locals[use.id]? = distance? q.scopes use.text := by
    intro use text h
    rw [(hr.defined use text h).1]
    exact he use text (.reads h)
  refine ⟨hf.chain_length, hf.chain_last, fun d scope hs => ⟨_, hf.chain_frame hs⟩, hentry, ?_⟩
  intro use text h d hd
  obtain ⟨rfl, hdefined⟩ := hr.defined use text h
  obtain ⟨scope, hs, hget⟩ := hdefined d ((hentry use _ h).symm.trans hd)
  obtain ⟨hchain, hbinds⟩ := hf.chain_frame hs
  exact ⟨(List.getElem?_eq_some_iff.1 hs).1, hchain, hbinds _ hget, lookUp_ok hd (hbinds _ hget)⟩

/-- **Lexical addressing is sound.**  Whenever a run in a session evaluates an expression, this or an earlier
program of the session was resolved at that expression, and the frames are those of the scopes around it.
The uses of names in the expression have no other scopes, and so no other distances. -/
theorem Session.Reached.addressing_sound (h : Session.Reached past s) (fuel : Nat) (source : String) :
    ∀ p ∈ s.evaluations fuel (Scan.ofString source).tokens,
      ∃ q, (p.1, q) ∈ past ++ s.resolutions (Scan.ofString source).tokens ∧ Addressed q.scopes p.1 p.2 ∧
        ∀ e' q', (e', q') ∈ past ++ s.resolutions (Scan.ofString source).tokens →
          ∀ o ∈ p.1.occurrences, ∀ o' ∈ e'.occurrences, o'.id = o.id → q'.scopes = q.scopes := by
  intro p hp
  obtain ⟨⟨q, hq, hfits⟩, is, place, hsound⟩ := (h.mapped.submit fuel (scan_spelled source)).2 p hp
  have hpq := hsound p.1 q hq
  refine ⟨q, hq, addressed_of_fits hfits hpq.placed.exact hpq.readable, ?_⟩
  intro e' q' hq' o ho o' ho' hid
  rw [← ((hsound e' q' hq').placed.place o' ho').2, ← (hpq.placed.place o ho).2, hid]

/-- In a block within a block, a variable of the outer one is read one frame further out. -/
theorem Session.addressing_sound_block : Session.Reached [] (Session.initial none) ∧
    ∃ p ∈ (Session.initial none).evaluations 4 (Scan.ofString "\x7blet a; \x7ba;\x7d\x7d").tokens,
      p.1 = .name .identifier ⟨⟨"a", 1⟩, 0⟩ ∧ p.2.locals[0]? = some 1 ∧
        ∃ q : Resolver, Addressed q.scopes p.1 p.2 := by
  have hread : ((Session.initial none).evaluations 4
      (Scan.ofString "\x7blet a; \x7ba;\x7d\x7d").tokens).head?.map (fun p => (p.1, p.2.locals[0]?)) =
        some (.name .identifier ⟨⟨"a", 1⟩, 0⟩, some 1) := by
    rw [Scan.ofString_eq_dispatch]
    cbv
  obtain ⟨p, hp, hpair⟩ := Option.map_eq_some_iff.1 hread
  obtain ⟨hname, hentry⟩ := Prod.mk.inj hpair
  have hmem := List.mem_of_mem_head? hp
  obtain ⟨q, -, haddressed, -⟩ := (Session.Reached.initial none).addressing_sound 4 _ p hmem
  exact ⟨Session.Reached.initial none, p, hmem, hname, hentry, q, haddressed⟩

end ScriptLang

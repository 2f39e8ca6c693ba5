import Mathlib
import ScriptLang.Proofs.Frames.GlobalNames
import ScriptLang.Proofs.Loops.TwinSessions

/-!
# `for` loops as they are written

The tree of a `for` loop does what the loop says: the initializer once, in a frame of its own, and then rounds of
condition, body and increment.  Programs that are run as they are written have no block around the body and the
increment, and the distances that their names have there; nothing else is different.

* `Stmt.forLoop_of_relabel`, `declaresHere_of_reads` — the trees that `for` statements are read as;
* `Distances.Agree.finds` — uses of names that mean the same find the same frame;
* `BehavesAsWritten` — what is said of the tree of a `for` loop;
* `Twins.for_loops_as_written` — the theorem.
-/

namespace ScriptLang

open Eval Grammar

/-! ### The trees of `for` loops -/

section Trees

variable {ι κ : Type} {f : Nat → Nat} {g : ι → κ} {s : Stmt ι}

lemma Stmt.while_of_relabel {c : Expr κ} {b : Stmt κ} (h : s.relabel f g = .while c b) :
    ∃ c' b', s = .while c' b' ∧ c'.relabel f g = c ∧ b'.relabel f g = b := by
  cases s <;> cases h
  exact ⟨_, _, rfl, rfl, rfl⟩

lemma Stmt.pair_of_relabel {a b : Stmt κ} (h : s.relabel f g = .block [a, b]) :
    ∃ a' b', s = .block [a', b'] ∧ a'.relabel f g = a ∧ b'.relabel f g = b := by
  cases s with
  | block body =>
    injection h with h
    match body, h with
    | [_, _], h =>
      cases h
      exact ⟨_, _, rfl, rfl, rfl⟩
  | _ => cases h

lemma Stmt.expr_of_relabel {e : Expr κ} (h : s.relabel f g = .expr e) : ∃ e', s = .expr e' ∧ e'.relabel f g = e := by
  cases s <;> cases h
  exact ⟨_, rfl, rfl⟩

/-- The parts of a loop are those of the same loop on other lines, with other identities. -/
lemma Stmt.forLoop_of_relabel {initializer : Option (Stmt κ)} {condition increment : Option (Expr κ)} {body : Stmt κ}
    (h : s.relabel f g = .forLoop initializer condition increment body) :
    ∃ i c n b, s = .forLoop i c n b ∧ i.map (Stmt.relabel f g) = initializer ∧ c.map (Expr.relabel f g) = condition ∧
      n.map (Expr.relabel f g) = increment ∧ b.relabel f g = body := by
  -- from the outside in: the block of the initializer, the loop, the block of the increment
  have hframe : ∃ (i : Option (Stmt ι)) (loop : Stmt ι), s = i.elim loop (fun t => .block [t, loop]) ∧
      i.map (Stmt.relabel f g) = initializer ∧ loop.relabel f g = .forLoop none condition increment body := by
    cases initializer with
    | none => exact ⟨none, s, rfl, rfl, h⟩
    | some t =>
      obtain ⟨i, loop, rfl, rfl, hloop⟩ := Stmt.pair_of_relabel h
      exact ⟨some i, loop, rfl, rfl, hloop⟩
  obtain ⟨i, loop, rfl, rfl, hloop⟩ := hframe
  obtain ⟨test, inner, rfl, htest, hinner⟩ := Stmt.while_of_relabel hloop
  have hcondition : ∃ c : Option (Expr ι), test = c.getD (.literal (.bool true)) ∧
      c.map (Expr.relabel f g) = condition := by
    cases condition with
    | none =>
      refine ⟨none, ?_, rfl⟩
      cases test <;> cases htest
      rfl
    | some c => exact ⟨some test, rfl, congrArg some htest⟩
  obtain ⟨c, rfl, rfl⟩ := hcondition
  cases increment with
  | none => exact ⟨i, c, none, inner, by cases i <;> rfl, rfl, rfl, rfl, hinner⟩
  | some n =>
    obtain ⟨b, last, rfl, rfl, hlast⟩ := Stmt.pair_of_relabel hinner
    obtain ⟨n, rfl, rfl⟩ := Stmt.expr_of_relabel hlast
    exact ⟨i, c, some n, b, by cases i <;> rfl, rfl, rfl, rfl, rfl⟩

end Trees

/-- What is read as a statement declares nothing where it stands. -/
lemma declaresHere_of_reads {path : Path} {ts rest : List Token} {s : Stmt Unit}
    (h : (statement path ts).Reads s rest) : s.declaresHere = false := by
  obtain ⟨us, d, -, hs, -⟩ := (statements_sound (ts.length + 1)).1 path ts s rest (Nat.lt_succ_self _) h
  exact hs.declaresHere

/-! ### What a loop does -/

/-- A use of a name, at a place with the given layers, means a global name in the tree and in the source, or finds
the same frame in both. -/
def Distances.Finds (T : Distances) (l : Layers) (k : OccurrenceId) : Prop :=
  ∀ (w : Chart) (fs fs' : Frames) (i : FrameId), fs.Charted T w fs' → i < w.length → w.layers i = l →
    T.tree[k]? = none ∧ T.source[k]? = none ∨
      ∃ d d', T.tree[k]? = some d ∧ T.source[k]? = some d' ∧
        fs'.ancestor d' (w.image i) = w.image (fs.ancestor d i)

/-- **Distances that agree find the same frame.** -/
lemma Distances.Agree.finds {T : Distances} {l : Layers} {k : OccurrenceId} (h : T.Agree l k) : T.Finds l k := by
  rintro w fs fs' i hframes hi rfl
  rcases hk : T.tree[k]? with _ | d
  · exact .inl ⟨rfl, h.unknown hk⟩
  · obtain ⟨hd, hsource⟩ := h.known d hk
    exact .inr ⟨d, _, rfl, hsource, (hframes.ancestor d i hi hd).2.2⟩

/-- **The tree of a `for` loop does what the loop says.** -/
structure BehavesAsWritten (T : Distances) (l : Layers) (initializer : Option (Stmt OccurrenceId))
    (condition increment : Option (Expr OccurrenceId)) (body : Stmt OccurrenceId) : Prop where
  /-- Executing the tree is the loop, step by step, with a frame around each body and increment. -/
  tree : ∀ fuel, execute fuel (.forLoop initializer condition increment body) =
    Runner.tree.forLoop initializer condition increment body fuel
  /-- With the distances of the source, it is the loop without such frames: the same value or error, the same output
  and the same machine behind it. -/
  source : ∀ fuel, SideBySide T [] l (Flow.Charted T) (execute fuel (.forLoop initializer condition increment body))
    (Runner.source.forLoop initializer condition increment body fuel)
  /-- All names in it mean the same. -/
  names : (Stmt.forLoop initializer condition increment body).FitsIn T l
  /-- No frame that was there before has more names than before. -/
  frames : ∀ fuel (m : Machine), m.current < m.frames.size → ∀ j < m.frames.size,
    SameNames j m.frames (endState (execute fuel (.forLoop initializer condition increment body) m)).frames

section Behaves

variable {T : Distances} {l : Layers} {i : Option (Stmt OccurrenceId)} {c n : Option (Expr OccurrenceId)}
  {b : Stmt OccurrenceId}

lemma Stmt.declaresHere_forLoop (hb : b.declaresHere = false) : (Stmt.forLoop i c n b).declaresHere = false := by
  unfold Stmt.forLoop
  cases i with
  | some s => rfl
  | none =>
    cases n with
    | some e => rfl
    | none => exact hb

/-- What declares nothing where it stands gives no frame more names. -/
lemma execute_sameNames {s : Stmt OccurrenceId} (hs : s.declaresHere = false) (fuel : Nat) {m : Machine}
    (hm : m.current < m.frames.size) {j : FrameId} (hj : j < m.frames.size) :
    SameNames j m.frames (endState (execute fuel s m)).frames := by
  have hevolving := (runs_evolve (m.frames.size ≤ ·) fuel).execute false s m fun h => hs.symm.trans h
  obtain ⟨hframes, -⟩ := hevolving ⟨hm, fun _ hi => hi, nofun⟩
  have hend := (List.pairwise_cons.1 hframes).1 _ (List.mem_append_right _ (List.mem_singleton.2 rfl))
  rw [← Observer.expressions.execute_run fuel () s]
  exact hend.sameNames hj (Nat.not_le_of_lt hj)

/-- A loop that fits its place behaves as it is written. -/
lemma behavesAsWritten_of_fits (hb : b.declaresHere = false) (hfits : (Stmt.forLoop i c n b).FitsIn T l) :
    BehavesAsWritten T l i c n b where
  tree fuel := Runner.execute_forLoop Runner.tree_lawful hb i c n fuel
  source fuel := by
    rw [← Runner.execute_forLoop Runner.source_lawful hb i c n fuel]
    exact (runs_sideBySide T fuel).2.1 [] l _ hfits
  names := hfits
  frames fuel m hm j hj := execute_sameNames (Stmt.declaresHere_forLoop hb) fuel hm hj

end Behaves

/-! ### The theorem -/

/-- The clauses and the body of a `for` statement, read from tokens behind the keyword. -/
structure ReadsFor (path : Path) (ts : List Token) (initializer : Option (Stmt OccurrenceId))
    (condition increment : Option (Expr OccurrenceId)) (body : Stmt OccurrenceId) (rest : List Token) : Prop where
  parts : ∃ mid, (forClauses (path.enter .forStatement) ts).Reads
      ⟨initializer.map (Stmt.relabel id fun _ => ()), condition.map (Expr.relabel id fun _ => ()),
        increment.map (Expr.relabel id fun _ => ())⟩ mid ∧
    (statement (path.enter .forStatement) mid).Reads (body.relabel id fun _ => ()) rest

/-- What is read as a `for` statement is the tree of a loop with the clauses and the body that are read. -/
lemma readsFor_of_reads {path : Path} {ts rest : List Token} {loop : Stmt OccurrenceId}
    (h : (forStatement path ts).Reads (loop.relabel id fun _ => ()) rest) :
    ∃ i c n b, loop = .forLoop i c n b ∧ ReadsFor path ts i c n b rest := by
  obtain ⟨clauses, mid, hclauses, body, after, hbody, hloop, rfl⟩ := forStatement_step.1 h
  obtain ⟨i, c, n, b, rfl, hi, hc, hn, rfl⟩ := Stmt.forLoop_of_relabel hloop.symm
  refine ⟨i, c, n, b, rfl, mid, ?_, hbody⟩
  rw [hi, hc, hn]
  exact hclauses

lemma ReadsFor.declaresHere {path : Path} {ts rest : List Token} {i : Option (Stmt OccurrenceId)}
    {c n : Option (Expr OccurrenceId)} {b : Stmt OccurrenceId} (h : ReadsFor path ts i c n b rest) :
    b.declaresHere = false := by
  obtain ⟨mid, -, hbody⟩ := h.parts
  rw [← Stmt.declaresHere_relabel id fun _ => ()]
  exact declaresHere_of_reads hbody

lemma reads_iff_result {α : Type} {ts rest : List Token} {x : Outcome (Parsed α ts)} {a : α} :
    x.Reads a rest ↔ x.result.map (fun p => (p.value, p.rest)) = .ok (a, rest) ∧ x.reported = [] := by
  obtain ⟨result, reported⟩ := x
  constructor
  · rintro ⟨p, hp, rfl, rfl⟩
    obtain ⟨rfl, rfl⟩ := Outcome.mk.inj hp
    exact ⟨rfl, rfl⟩
  · rintro ⟨hresult, rfl⟩
    rcases result with d | p
    · cases hresult
    · obtain ⟨rfl, rfl⟩ := Prod.mk.inj (Except.ok.inj hresult)
      exact ⟨p, rfl, rfl, rfl⟩

namespace Session

variable {s s' : Session} {tree : Program Unit} {res : Resolution}

/-- **A `for` loop behaves as it is written.**  Of two sessions that have been asked the same, let one run trees and the
other one run programs as they are written, and let the first one read and resolve another program.  Then the other
one resolves it with the same warnings; with the distances of both, the machines that run the program are the same
but for the frames that only the tree has; and whatever both are asked from now on, they reply the same.  Every `for`
statement of the program, at whatever place, is the tree of a loop with the clauses and the body that were read, and
that tree behaves as the loop is written.  Every name in it finds the frame that it finds in the source. -/
theorem Twins.for_loops_as_written (h : Twins s s')
    (hresolve : (s.resolver.resolve (s.numbered tree)).1 = .ok res) :
    ∃ res', (Source.resolve s'.resolver (s'.numbered tree)).1 = .ok res' ∧ res'.warnings = res.warnings ∧
      (∀ qs, Source.replies s' qs = s.replies qs) ∧
      ∀ install,
        (∃ w, Machine.Charted (distances install s s' tree res res') w
            { s.machine with locals := tableWith install s.machine.locals res.locals }
              { s'.machine with locals := tableWith install s'.machine.locals res'.locals } ∧
          w.layers s.machine.current = []) ∧
        (∀ l k, (distances install s s' tree res res').Agree l k →
          (distances install s s' tree res res').Finds l k) ∧
        ∀ (t loop : Stmt OccurrenceId) (l : Layers) (path : Path) (ts rest : List Token), t ∈ s.numbered tree →
          Stmt.Within [] t l loop → (forStatement path ts).Reads (loop.relabel id fun _ => ()) rest →
            ∃ i c n b, loop = .forLoop i c n b ∧ ReadsFor path ts i c n b rest ∧
              BehavesAsWritten (distances install s s' tree res res') l i c n b := by
  have hcharted := h.charted
  rw [hcharted.resolver] at hresolve
  obtain ⟨rejection, hrejected, -⟩ | ⟨res1, res', hres, hres', hc⟩ := resolve_concur (nodup_numbered s tree)
  · rw [hresolve] at hrejected
    cases hrejected
  obtain rfl : res = res1 := Except.ok.inj (hresolve.symm.trans hres)
  rw [hcharted.resolver', hcharted.numbered_eq tree]
  refine ⟨res', hres', hc.warnings, h.replies, fun install => ⟨hcharted.starts hc install, ?_, ?_⟩⟩
  · exact fun l k hagree => hagree.finds
  · intro t loop l path ts rest hmem hwithin hread
    obtain ⟨i, c, n, b, rfl, hparts⟩ := readsFor_of_reads hread
    have hfits := hwithin.fits ((hcharted.fits hc install).mem hmem)
    exact ⟨i, c, n, b, rfl, hparts, behavesAsWritten_of_fits hparts.declaresHere hfits⟩

/-- A loop that runs once. -/
def once : Stmt OccurrenceId :=
  .forLoop (some (.letVar ⟨"i", 1⟩ (some (.literal (.bool true))))) (some (.name .identifier ⟨⟨"i", 1⟩, 0⟩))
    (some (.assign ⟨⟨"i", 1⟩, 2⟩ (.literal (.bool false)))) (.print (.name .identifier ⟨⟨"i", 1⟩, 1⟩))

/-- The tokens of the loop behind the keyword. -/
def onceTokens : List Token :=
  [⟨.symbol .leftParen, "(", 1⟩, ⟨.keyword .letKw, "let", 1⟩, ⟨.identifier, "i", 1⟩, ⟨.symbol .equal, "=", 1⟩,
    ⟨.keyword .trueKw, "true", 1⟩, ⟨.symbol .semicolon, ";", 1⟩, ⟨.identifier, "i", 1⟩, ⟨.symbol .semicolon, ";", 1⟩,
    ⟨.identifier, "i", 1⟩, ⟨.symbol .equal, "=", 1⟩, ⟨.keyword .falseKw, "false", 1⟩, ⟨.symbol .rightParen, ")", 1⟩,
    ⟨.keyword .printKw, "print", 1⟩, ⟨.identifier, "i", 1⟩, ⟨.symbol .semicolon, ";", 1⟩]

/-- The request to run the loop. -/
def runOnce : Request := ⟨9, true, ⟨.keyword .forKw, "for", 1⟩ :: onceTokens, 0⟩

/-- In the tree there is a frame between the body and the variable of the loop; in the source there is none.  Both
run the body once, which prints the value that the variable has before the increment. -/
theorem for_loops_as_written_once :
    (Source.resolve (initial none).resolver [once]).1 = .ok ⟨{(0, 0), (1, 0), (2, 0)}, []⟩ ∧
      (∀ qs, Source.replies (initial none) qs = (initial none).replies qs) ∧
      (initial none).replies [runOnce] = [⟨.completed [], "true\n", [], [], 3⟩] ∧
      Source.replies (initial none) [runOnce] = [⟨.completed [], "true\n", [], [], 3⟩] ∧
      ∃ i c n b, once = .forLoop i c n b ∧ ReadsFor [] onceTokens i c n b [] ∧
        BehavesAsWritten (distances true (initial none) (initial none) [once.relabel id fun _ => ()]
          ⟨{(0, 0), (1, 1), (2, 1)}, []⟩ ⟨{(0, 0), (1, 0), (2, 0)}, []⟩) [] i c n b := by
  have hnumbered : (initial none).numbered [once.relabel id fun _ => ()] = [once] := by cbv
  have hresolve : ((initial none).resolver.resolve ((initial none).numbered [once.relabel id fun _ => ()])).1 =
      .ok ⟨{(0, 0), (1, 1), (2, 1)}, []⟩ := by cbv
  have hsource : (Source.resolve (initial none).resolver [once]).1 = .ok ⟨{(0, 0), (1, 0), (2, 0)}, []⟩ := by cbv
  have hread : (forStatement [] onceTokens).Reads (once.relabel id fun _ => ()) [] := by
    rw [reads_iff_result]
    constructor <;> cbv
  have hrun : (initial none).replies [runOnce] = [⟨.completed [], "true\n", [], [], 3⟩] := by cbv
  obtain ⟨res', hres', -, hreplies, hloops⟩ := (Twins.initial none).for_loops_as_written hresolve
  rw [hnumbered, hsource] at hres'
  obtain rfl := Except.ok.inj hres'
  refine ⟨hsource, hreplies, hrun, (hreplies [runOnce]).trans hrun, ?_⟩
  obtain ⟨-, -, hloop⟩ := hloops true
  refine hloop once once [] [] onceTokens [] ?_ .here hread
  rw [hnumbered]
  exact List.mem_cons_self

end Session

end ScriptLang

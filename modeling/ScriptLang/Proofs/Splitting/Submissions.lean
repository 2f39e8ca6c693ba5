import Mathlib
import ScriptLang.Proofs.Grammar.SentencesOnLines
import ScriptLang.Proofs.Splitting.MoreFuel
import ScriptLang.Proofs.Splitting.ResolvingMirrored
import ScriptLang.Proofs.Splitting.RunningAlike
import ScriptLang.Proofs.Submission
import ScriptLang.Proofs.Token.Seam
import ScriptLang.Proofs.Token.Dispatch

/-!
# One submission or two

Two texts that a session takes one after the other, and that both run to their end, may as well be taken as
one text with a line break between them: the output is the same, and so is what can be seen of the session
behind it.

* `Session.take`, `Session.output`, `Session.LooksLike` — texts, their output, and sessions that look alike;
* `parse_newline`, `number_append`, `run_append`, `tableWith_append` — each stage by itself;
* `Reachable.alike` — the invariant of sessions;
* `Runs.append` — the stages put together;
* `Reachable.take_append` — the theorem.
-/

namespace ScriptLang

/-- What the value of a global name is printed as. -/
def Machine.printed (m : Machine) (name : String) : Option String :=
  ((m.frames.frame globalFrame).get? name).map Value.text

namespace Session

/-- Takes a source text. -/
def take (fuel : Nat) (install : Bool) (source : String) (s : Session) : Answer × Session :=
  s.submit fuel install (Scan.ofString source).tokens

/-- What has been written between two sessions. -/
def output (s s' : Session) : String :=
  s'.machine.sink.textFrom s.machine.sink.written.size

/-- The same global names, of which the values are printed alike, and as many entries in the table. -/
structure LooksLike (s s' : Session) : Prop where
  globals : s.machine.globals = s'.machine.globals
  constants : s.machine.constants = s'.machine.constants
  printed : ∀ name, s.machine.printed name = s'.machine.printed name
  entries : s.machine.locals.size = s'.machine.locals.size

end Session

variable {n n' n'' fuel : Nat} {m m' m1 m1' m2 : Machine} {P Q : Program Unit}

/-! ### Reading and numbering -/

/-- Two texts that are read are read with a line break between them. -/
lemma parse_newline {a b : String} (ha : (Scan.ofString a).errors = [])
    (hP : Program.parse (Scan.ofString a).tokens = .ok P)
    (hQ : Program.parse (Scan.ofString b).tokens = .ok Q) :
    ∃ f, Program.parse (Scan.ofString (a ++ "\n" ++ b)).tokens = .ok (P ++ Stmt.relabelList f id Q) := by
  have hclosed : ∀ e ∈ (Scan.ofString a).errors, ¬ e.IsOpen := by
    rw [ha]
    exact List.forall_mem_nil _
  obtain ⟨ts, last, hts, htokens, happend⟩ := ofString_append_newline b hclosed
  rw [htokens] at hP
  refine ⟨(· + last), ?_⟩
  rw [happend]
  exact parse_append (· + last) (fun t ht => Bool.eq_false_iff.2 (mt isEnd_eq_true_iff.1 (hts t ht))) rfl hP hQ

lemma number_append (f : Nat → Nat) : Program.number (P ++ Stmt.relabelList f id Q) n =
    ((P.number n).1 ++ Stmt.relabelList f id (Q.number (P.number n).2).1, (Q.number (P.number n).2).2) := by
  unfold Program.number
  rw [Stmt.numberList_append, Stmt.numberList_relabel]

lemma mem_ids_number {k : OccurrenceId} (n : OccurrenceId) (P : Program Unit) :
    k ∈ ids (Stmt.occurrencesList (P.number n).1) ↔ n ≤ k ∧ k < (P.number n).2 := by
  obtain ⟨-, hids, hnext⟩ := Stmt.numberList_spec n P
  unfold Program.number
  rw [hids, hnext, List.mem_range'_1]

lemma number_below (n : OccurrenceId) (P : Program Unit) :
    Below (P.number n).2 (Stmt.occurrencesList (P.number n).1) :=
  fun _ ho => ((mem_ids_number n P).1 (List.mem_map_of_mem ho)).2

lemma le_number (n : OccurrenceId) (P : Program Unit) : n ≤ (P.number n).2 :=
  Nat.le.intro (Stmt.numberList_spec n P).next.symm

/-! ### Output -/

lemma textFrom_append {sink sink' : Sink} {text : String}
    (h : sink'.written = sink.written ++ text.toUTF8) : sink'.textFrom sink.written.size = text := by
  have hdecode : String.fromUTF8? text.toUTF8 = some text := by
    rw [String.toUTF8_eq_toByteArray, String.fromUTF8?, dif_pos text.isValidUTF8]
    rfl
  unfold Sink.textFrom Text.ofBytes
  rw [h, ByteArray.extract_append_eq_right rfl ByteArray.size_append, hdecode]

lemma Wrote.textFrom_trans (h : Wrote m m1) (h' : Wrote m1 m2) :
    m2.sink.textFrom m.sink.written.size =
      m1.sink.textFrom m.sink.written.size ++ m2.sink.textFrom m1.sink.written.size := by
  obtain ⟨text, htext⟩ := h
  obtain ⟨text', htext'⟩ := h'
  rw [textFrom_append htext, textFrom_append htext']
  refine textFrom_append ?_
  rw [htext', htext, ByteArray.append_assoc, String.toUTF8_eq_toByteArray, String.toUTF8_eq_toByteArray,
    String.toUTF8_eq_toByteArray, String.toByteArray_append]

/-! ### Running -/

/-- A run leaves no code behind with numbers that were still free, and the table as it was. -/
lemma run_self {L : Locals} {program : Program OccurrenceId} (fuel : Nat) (hm : m.Alike n m) (hn : n ≤ n')
    (hb : Below n' (Stmt.occurrencesList program)) :
    (runProgram fuel program { m with locals := L }).2.Alike n'
        (runProgram fuel program { m with locals := L }).2 ∧
      (runProgram fuel program { m with locals := L }).2.locals = L := by
  have hstart : Machine.Alike n' { m with locals := L } { m with locals := L } := hm.install hn fun _ _ => rfl
  obtain ⟨ht, -⟩ := runProgram_alike fuel id hb hstart
  rw [Stmt.relabelList_self] at ht
  exact ⟨ht.alike, ht.left⟩

/-- Two programs that run to their end, each with a table of its own, run to their end as one with a table
that has the entries of both. -/
lemma run_append {L L1 L2 : Locals} {program program' : Program OccurrenceId} (f : Nat → Nat)
    (hm : m.Alike n m) (hn : n ≤ n') (hn' : n' ≤ n'') (hb : Below n' (Stmt.occurrencesList program))
    (hb' : Below n'' (Stmt.occurrencesList program')) (hL1 : ∀ k < n', L1[k]? = L[k]?)
    (hL2 : ∀ k < n'', L2[k]? = L[k]?)
    (h1 : runProgram fuel program { m with locals := L1 } = (.completed, m1))
    (h2 : runProgram fuel program' { m1 with locals := L2 } = (.completed, m2)) :
    ∃ m2', runProgram fuel (program ++ Stmt.relabelList f id program') { m with locals := L } =
        (.completed, m2') ∧ m2.Alike n'' m2' ∧ m2.locals = L2 ∧ m2'.locals = L ∧ Wrote m m1 ∧ Wrote m1 m2 := by
  have hstart : Machine.Alike n' { m with locals := L1 } { m with locals := L } := hm.install hn hL1
  obtain ⟨ht, hend⟩ := runProgram_alike fuel id hb hstart
  rw [Stmt.relabelList_self, h1] at ht hend
  rcases h1' : runProgram fuel program { m with locals := L } with ⟨result, m1'⟩
  rw [h1'] at ht hend
  obtain ⟨rfl, hw⟩ := hend rfl
  obtain rfl : m1'.locals = L := ht.right
  obtain ⟨ht', hend'⟩ := runProgram_alike fuel f hb' (ht.alike.install hn' hL2)
  rw [h2] at ht' hend'
  obtain ⟨hcompleted, hw'⟩ := hend' rfl
  have happend := runProgram_append (Stmt.relabelList f id program') (congrArg Prod.fst h1')
  rw [h1'] at happend
  exact ⟨_, happend.trans (Prod.ext hcompleted rfl), ht'.alike, ht'.left, ht'.right, hw, hw'⟩

/-! ### Sessions -/

lemma looksLike_of_alike {s s' : Session} (h : s.machine.Alike n s'.machine)
    (hL : ∀ k : OccurrenceId, s.machine.locals[k]? = s'.machine.locals[k]?) : s.LooksLike s' := by
  have hframe := h.frames.frame globalFrame
  refine ⟨?_, ?_, fun name => ?_, (Std.TreeMap.Equiv.of_forall_constGet?_eq hL).size_eq⟩
  · unfold Machine.globals Table.sortedNames
    rw [hframe.mutables.names]
  · unfold Machine.constants Table.sortedNames
    rw [hframe.constants.names]
  · unfold Machine.printed
    obtain ⟨hv, hv'⟩ | ⟨v, v', hv, hv', hvv⟩ := rel_iff.1 (hframe.get? name)
    · rw [hv, hv']
    · rw [hv, hv', Option.map_some, Option.map_some, hvv.text]

namespace Session

variable {s : Session} {install : Bool}

/-- Between programs, a machine holds no code with numbers that are still free. -/
lemma Reachable.alike (h : Reachable s) : s.machine.Alike s.nextId s.machine := by
  induction h with
  | initial limit => exact initial_alike limit
  | @submit s fuel install tokens _ ih =>
    rcases hparse : Program.parse tokens with ds | tree
    · rw [submit_unreadable hparse]
      exact ih
    have hle := le_number s.nextId tree
    rcases hres : (s.resolver.resolve (s.numbered tree)).1 with rejection | res
    · rw [submit_rejected hparse hres]
      exact ih.install hle fun _ _ => rfl
    · rw [submit_ran hparse hres]
      exact (run_self fuel ih hle (number_below s.nextId tree)).1

/-! ### The theorem -/

/-- Behind two programs, the table with the entries of both is the one that comes from installing them one
after the other; those of the second are not below its numbers. -/
lemma tableWith_append (install : Bool) (L : Locals) {T T1 T2 : Locals} (hT : ∀ k : OccurrenceId, T[k]? = T2[k]?.or T1[k]?)
    (hT2 : ∀ k < n, T2[k]? = none) :
    (∀ k < n, (tableWith install L T1)[k]? = (tableWith install L T)[k]?) ∧
      ∀ k : OccurrenceId, (tableWith install (tableWith install L T1) T2)[k]? = (tableWith install L T)[k]? := by
  simp only [getElem?_tableWith, hT]
  cases install with
  | false => exact ⟨fun _ _ => rfl, fun _ => rfl⟩
  | true =>
    refine ⟨fun k hk => ?_, fun k => ?_⟩
    · rw [hT2 k hk]
      rfl
    · exact Option.or_assoc.symm

/-- A text is read, resolved and run to its end, with these results. -/
structure Runs (fuel : Nat) (install : Bool) (source : String) (s : Session) (tree : Program Unit)
    (res : Resolution) (m : Machine) : Prop where
  parse : Program.parse (Scan.ofString source).tokens = .ok tree
  resolve : (Resolver.empty.resolve (s.numbered tree)).1 = .ok res
  run : s.runWith fuel install tree res.locals = (.completed, m)

variable {a b : String} {fuel1 fuel2 : Nat} {res res' : Resolution}

lemma Runs.take (h : Runs fuel install a s P res m) (hr : s.resolver = .empty) :
    s.take fuel install a = (.ran res.warnings .completed, ⟨(P.number s.nextId).2, .empty, m⟩) := by
  have hres := h.resolve
  rw [← hr] at hres
  unfold Session.take
  rw [submit_ran h.parse hres, h.run, resolve_snd (congrArg Resolver.scopes hr)]

lemma runs_of_completed (hr : s.resolver = .empty) (h : (s.take fuel install a).1.isCompleted) :
    ∃ tree res m, Runs fuel install a s tree res m := by
  obtain ⟨tree, res, hparse, hres, hrun⟩ := submit_completed h
  rw [hr] at hres
  exact ⟨tree, res, _, hparse, hres, Prod.ext hrun rfl⟩

/-- Both texts with a line break between them: each stage has the results of both. -/
lemma Runs.append (h : Runs fuel1 install a s P res m1) (hm : s.machine.Alike s.nextId s.machine)
    (h' : Runs fuel2 install b ⟨(P.number s.nextId).2, .empty, m1⟩ Q res' m2)
    (ha : (Scan.ofString a).errors = []) (hf1 : fuel1 ≤ fuel) (hf2 : fuel2 ≤ fuel) :
    ∃ tree res'' m2', Runs fuel install (a ++ "\n" ++ b) s tree res'' m2' ∧
      (∃ n, m2.Alike n m2') ∧ (∀ k : OccurrenceId, m2.locals[k]? = m2'.locals[k]?) ∧
      Wrote s.machine m1 ∧ Wrote m1 m2 := by
  obtain ⟨f, hparse⟩ := parse_newline ha h.parse h'.parse
  obtain ⟨res'', hres, hT⟩ := Resolving.resolve_append h.resolve h'.resolve f
  have hnumber : s.numbered (P ++ Stmt.relabelList f id Q) =
      (P.number s.nextId).1 ++ Stmt.relabelList f id (Q.number (P.number s.nextId).2).1 :=
    congrArg Prod.fst (number_append f)
  have hT2 : ∀ k < (P.number s.nextId).2, res'.locals[k]? = none := fun k hk =>
    resolve_outside h'.resolve fun hmem => Nat.not_lt.2 ((mem_ids_number ..).1 hmem).1 hk
  obtain ⟨hL1, hL2⟩ := tableWith_append install s.machine.locals hT hT2
  -- with its own fuel, each text runs as it does with the larger fuel
  have hrun1 := runProgram_completed_more hf1 h.run
  have hrun2 := runProgram_completed_more hf2 h'.run
  have hlocals : m1.locals = tableWith install s.machine.locals res.locals := by
    have hleft := (run_self (L := tableWith install s.machine.locals res.locals) fuel hm (le_number _ P)
      (number_below _ P)).2
    rwa [show runProgram fuel (P.number s.nextId).1 _ = _ from hrun1] at hleft
  rw [← hlocals] at hL2
  obtain ⟨m2', hrun, halike, hm2, hm2', hw, hw'⟩ := run_append f hm (le_number _ P) (le_number _ Q)
    (number_below _ P) (number_below _ Q) hL1 (fun k _ => hL2 k) hrun1 hrun2
  refine ⟨_, res'', m2', ⟨hparse, hnumber ▸ hres, ?_⟩, ⟨_, halike⟩, fun k => ?_, hw, hw'⟩
  · unfold runWith
    rw [hnumber, hrun]
  · rw [hm2, hm2']
    exact hL2 k

/-- **Splitting a program into submissions preserves its meaning.**  If two texts, the first of them without
errors of scanning, run to their end one after the other, then so does the text of both with a line break
between them.  It writes what both have written, and leaves a session that looks the same. -/
theorem Reachable.take_append (h : Reachable s) (ha : (Scan.ofString a).errors = [])
    (h1 : (s.take fuel1 install a).1.isCompleted)
    (h2 : ((s.take fuel1 install a).2.take fuel2 install b).1.isCompleted)
    (hf1 : fuel1 ≤ fuel) (hf2 : fuel2 ≤ fuel) :
    (s.take fuel install (a ++ "\n" ++ b)).1.isCompleted ∧
      output s (s.take fuel install (a ++ "\n" ++ b)).2 =
        output s (s.take fuel1 install a).2 ++
          output (s.take fuel1 install a).2 ((s.take fuel1 install a).2.take fuel2 install b).2 ∧
      LooksLike ((s.take fuel1 install a).2.take fuel2 install b).2
        (s.take fuel install (a ++ "\n" ++ b)).2 := by
  obtain ⟨P, res, m1, hruns⟩ := runs_of_completed h.resolver h1
  rw [hruns.take h.resolver] at h2 ⊢
  obtain ⟨Q, res', m2, hruns'⟩ := runs_of_completed rfl h2
  obtain ⟨tree, res'', m2', hboth, ⟨n, halike⟩, hlocals, hw, hw'⟩ := hruns.append h.alike hruns' ha hf1 hf2
  rw [hruns'.take rfl, hboth.take h.resolver]
  refine ⟨rfl, ?_, looksLike_of_alike halike hlocals⟩
  unfold output
  rw [← hw.textFrom_trans hw', halike.sink]

/-- A variable that one text declares and the next one prints. -/
theorem take_append_let_print :
    ((initial none).take 3 true ("let a;" ++ "\n" ++ "print a;")).1.isCompleted ∧
      output (initial none) ((initial none).take 3 true ("let a;" ++ "\n" ++ "print a;")).2 =
        output (initial none) ((initial none).take 2 true "let a;").2 ++
          output ((initial none).take 2 true "let a;").2
            (((initial none).take 2 true "let a;").2.take 3 true "print a;").2 ∧
      LooksLike (((initial none).take 2 true "let a;").2.take 3 true "print a;").2
        ((initial none).take 3 true ("let a;" ++ "\n" ++ "print a;")).2 := by
  refine (Reachable.initial none).take_append ?_ ?_ ?_ (Nat.le_succ 2) (Nat.le_refl 3)
  · rw [Scan.ofString_eq_dispatch]
    cbv
  · rw [take, Scan.ofString_eq_dispatch]
    cbv
  · simp only [take, Scan.ofString_eq_dispatch]
    cbv

end Session

end ScriptLang

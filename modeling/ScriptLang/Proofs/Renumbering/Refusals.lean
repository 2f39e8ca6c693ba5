import ScriptLang.Proofs.Renaming.RenamedSessions
import ScriptLang.Proofs.Renumbering.RenumberedSessions
import ScriptLang.Proofs.Token.Dispatch

/-!
# Refused programs leave no trace

A program that is not read, or not fit to run, changes nothing in a session but the next free number of uses of
names.  And no answer of a session depends on that number.  So a session without the programs that it has refused
gives the same answers to all others.

* `Session.Ahead`, `Ahead.submit` — two sessions whose next free numbers differ, and how they stay so;
* `Reachable.replies_skip` — numbers that are lost between programs make no difference;
* `Session.refusals_invisible` — the theorem.
-/

namespace ScriptLang

open Resolving

/-! ### Code with old numbers -/

section Fixed

variable {n : OccurrenceId} {g : OccurrenceId → OccurrenceId} (hg : ∀ i < n, g i = i)

include hg

/-- A value whose numbers all stay is not changed. -/
lemma Value.Alike.renumber {v v' : Value} (h : v.Alike n v') : v.renumber g = v := by
  have hf : ∀ f f' : Closure, f.Alike n f' → Renumbered g f f := fun f f' hf =>
    congrArg (fun d => Closure.mk f.stamp d f.frame)
      (FunctionDecl.relabel_fixed f.decl fun o ho => hg _ (hf.decl.below o ho))
  exact Value.related_iff.1 (h.related.self hf hf)

lemma Table.Alike.renumber {t t' : Table Value} (h : t.Alike (Value.Alike n) t') :
    t.mapEntries (Value.renumber g) = t :=
  Table.alike_iff.1 (h.self fun _ _ hv => hv.renumber hg)

lemma Frame.Alike.renumber {f f' : Frame} (h : f.Alike n f') : f.renumber g = f :=
  congrArg₂ (Frame.mk · · f.parent) (h.mutables.renumber hg) (h.constants.renumber hg)

/-- A machine whose numbers all stay is not changed, nor is its table if it has no entries under others. -/
lemma Machine.Alike.renumber {m : Machine} {ρ : Renumbering} (h : m.Alike n m) (hnumber : ρ.number = g)
    (hnew : ρ.new = m.locals) : m.renumber ρ = m := by
  have hframes : m.frames.renumber ρ.number = m.frames := by
    refine Array.ext_getElem? fun i => ?_
    have hi := (h.frames.frame i).renumber hg
    unfold Frames.frame at hi
    unfold Frames.renumber
    rw [Array.getElem?_map, hnumber]
    cases hf : m.frames[i]? with
    | none => rfl
    | some f =>
      rw [hf] at hi
      exact congrArg some hi
  have hobjects : m.objects.map (Table.mapEntries (Value.renumber ρ.number)) = m.objects := by
    refine Array.ext_getElem? fun i => ?_
    have hi := (h.properties i).renumber hg
    rw [Array.getD_eq_getD_getElem?] at hi
    rw [Array.getElem?_map, hnumber]
    cases ht : m.objects[i]? with
    | none => rfl
    | some t =>
      rw [ht] at hi
      exact congrArg some hi
  unfold Machine.renumber
  rw [hframes, hobjects, hnew]

end Fixed

/-! ### Sessions with other numbers -/

namespace Session

variable {g : OccurrenceId → OccurrenceId} {k : Nat} {s s' : Session}

/-- **The second session is the first one with other numbers**, and its next free number is further on. -/
structure Ahead (g : OccurrenceId → OccurrenceId) (k : Nat) (s s' : Session) : Prop where
  resolver : s.resolver = .empty
  resolver' : s'.resolver = .empty
  counter : s'.nextId = s.nextId + k
  shifts : ShiftsFrom s.nextId k g
  locals : Renumbers g s.machine.locals s'.machine.locals
  machine : ∃ ρ : Renumbering, ρ.number = g ∧ s'.machine = s.machine.renumber ρ

namespace Ahead

lemma skip (h : Ahead g k s s') (j : Nat) : Ahead g k (s.skip j) (s'.skip j) :=
  ⟨h.resolver, h.resolver', (congrArg (· + j) h.counter).trans (Nat.add_right_comm ..), h.shifts.behind rfl,
    h.locals, h.machine⟩

lemma numbered (h : Ahead g k s s') (tree : Program Unit) :
    s'.numbered tree = Stmt.relabelList id g (s.numbered tree) ∧
      (tree.number s'.nextId).2 = (tree.number s.nextId).2 + k := by
  have hboth := Stmt.numberList_add h.shifts tree
  rw [← h.counter] at hboth
  exact ⟨congrArg Prod.fst hboth, congrArg Prod.snd hboth⟩

lemma alongside (h : Ahead g k s s') (n m : OccurrenceId) :
    Alongside g { s with nextId := n } { s' with nextId := m } :=
  ⟨h.resolver, h.resolver', h.locals, h.machine⟩

/-- Two such sessions take a program in the same way, and are two such sessions behind it. -/
lemma submit (h : Ahead g k s s') (hg : g.Injective) (fuel : Nat) (install : Bool) (tokens : List Token) :
    (s'.submit fuel install tokens).1.verdict = (s.submit fuel install tokens).1.verdict ∧
      Ahead g k (s.submit fuel install tokens).2 (s'.submit fuel install tokens).2 := by
  rcases hparse : Program.parse tokens with ds | tree
  · rw [submit_unreadable hparse, submit_unreadable hparse]
    exact ⟨rfl, h⟩
  obtain ⟨hnumbered, hnext⟩ := h.numbered tree
  rw [submit_readable hparse, submit_readable hparse, hnumbered]
  obtain ⟨hverdict, hbehind⟩ := (h.alongside (tree.number s.nextId).2 (tree.number s'.nextId).2).launch hg fuel install
    (s.numbered tree)
  refine ⟨hverdict, hbehind.resolver, hbehind.resolver', ?_, ?_, hbehind.machine.locals, hbehind.machine.same⟩
  · rw [launch_nextId, launch_nextId]
    exact hnext
  · rw [launch_nextId]
    exact h.shifts.behind (Stmt.numberList_spec s.nextId tree).next

lemma reply (h : Ahead g k s s') (hg : g.Injective) (q : Request) :
    s'.reply q = s.reply q ∧ Ahead g k (s.next q) (s'.next q) := by
  obtain ⟨hverdict, hnext⟩ := (h.skip q.skipped).submit hg q.fuel q.install q.tokens
  rw [reply_eq, reply_eq]
  refine ⟨?_, hnext⟩
  exact (h.alongside s.nextId s'.nextId).told hg hverdict (hnext.alongside _ _)

lemma replies (h : Ahead g k s s') (hg : g.Injective) (qs : List Request) : s'.replies qs = s.replies qs := by
  induction qs generalizing s s' with
  | nil => rfl
  | cons q qs ih =>
    obtain ⟨hreply, hnext⟩ := h.reply hg q
    rw [Session.replies, Session.replies, hreply, ih hnext]

end Ahead

/-! ### Lost numbers -/

/-- Numbers up to the given one stay, and the others are larger by the same amount. -/
def shiftFrom (n k i : Nat) : Nat := if i < n then i else i + k

lemma shiftFrom_injective (n k : Nat) : (shiftFrom n k).Injective := by
  intro i j h
  unfold shiftFrom at h
  split at h <;> split at h <;> omega

/-- A session whose next free number is further on is the same session with other numbers to come. -/
lemma Reachable.ahead (h : Reachable s) (k : Nat) : Ahead (shiftFrom s.nextId k) k s (s.skip k) := by
  have hstay : ∀ i < s.nextId, shiftFrom s.nextId k i = i := fun i hi => if_pos hi
  have hshift : ShiftsFrom s.nextId k (shiftFrom s.nextId k) := fun i hi => if_neg (Nat.not_lt.2 hi)
  have hlocals : Renumbers (shiftFrom s.nextId k) s.machine.locals s.machine.locals := by
    refine ⟨fun i => ?_, fun i hi => ?_⟩
    · -- A number that moves has no entry, neither where it was nor where it goes.
      by_cases hlt : i < s.nextId
      · rw [hstay i hlt]
      · have hle := Nat.not_lt.1 hlt
        rw [hshift i hle, h.locals_none i hle, h.locals_none _ (Nat.le_trans hle (Nat.le_add_right i k))]
    · refine ⟨i, hstay i (Nat.not_le.1 fun hle => ?_)⟩
      rw [Std.TreeMap.mem_iff_isSome_getElem?, h.locals_none i hle] at hi
      cases hi
  refine ⟨h.resolver, h.resolver, rfl, hshift, hlocals, ⟨_, _, _, hlocals.entry⟩, rfl, ?_⟩
  exact (h.alike.renumber hstay rfl rfl).symm

/-- Numbers that are lost make no difference. -/
lemma Reachable.replies_skip (h : Reachable s) (k : Nat) (qs : List Request) :
    (s.skip k).replies qs = s.replies qs :=
  (h.ahead k).replies (shiftFrom_injective s.nextId k) qs

lemma Reachable.next (h : Reachable s) (q : Request) : Reachable (s.next q.unskipped) :=
  .submit q.fuel q.install q.tokens h

lemma Reachable.replies_unskipped (h : Reachable s) (qs : List Request) :
    s.replies qs = s.replies (qs.map .unskipped) := by
  -- Numbers lost before a program are lost before all that follow, so they are put back before the induction goes on.
  induction qs generalizing s with
  | nil => rfl
  | cons q qs ih =>
    calc s.replies (q :: qs) = (s.skip q.skipped).replies (q.unskipped :: qs) := rfl
      _ = s.replies (q.unskipped :: qs) := h.replies_skip q.skipped _
      _ = s.replies (q.unskipped :: qs.map .unskipped) := congrArg (_ :: ·) (ih (h.next q))

/-! ### Refused programs -/

/-- A refused program only takes numbers. -/
lemma Reachable.next_refused {q : Request} (h : Reachable s) (hrefused : (s.reply q.unskipped).verdict.isRefusal) :
    ∃ k, s.next q.unskipped = s.skip k := by
  have hverdict : (s.submit q.fuel q.install q.tokens).1.verdict.isRefusal := hrefused
  have hnext : s.next q.unskipped = (s.submit q.fuel q.install q.tokens).2 := rfl
  rw [hnext]
  rcases hparse : Program.parse q.tokens with ds | tree
  · rw [submit_unreadable hparse]
    exact ⟨0, rfl⟩
  rcases hres : (s.resolver.resolve (s.numbered tree)).1 with rejection | res
  · rw [submit_rejected hparse hres, resolve_snd (congrArg Resolver.scopes h.resolver), ← h.resolver,
      show (tree.number s.nextId).2 = _ from (Stmt.numberList_spec s.nextId tree).next]
    exact ⟨_, rfl⟩
  · -- A program that runs is not refused, however it ends.
    rw [submit_ran hparse hres] at hverdict
    rcases hrun : (s.runWith q.fuel q.install tree res.locals).1 with _ | _ | _ <;>
      · rw [hrun] at hverdict
        cases hverdict

lemma Reachable.replies_eraseIdx (h : Reachable s) {qs : List Request} {i : Nat} {r : Reply}
    (hr : (s.replies (qs.map .unskipped))[i]? = some r) (hrefused : r.verdict.isRefusal) :
    s.replies ((qs.eraseIdx i).map .unskipped) = (s.replies (qs.map .unskipped)).eraseIdx i := by
  induction qs generalizing s i with
  | nil => rfl
  | cons q qs ih =>
    cases i with
    | zero =>
      obtain rfl : s.reply q.unskipped = r := Option.some.inj hr
      obtain ⟨k, hk⟩ := h.next_refused hrefused
      have htail : (s.next q.unskipped).replies (qs.map .unskipped) = s.replies (qs.map .unskipped) := by
        rw [hk]
        exact h.replies_skip k _
      exact htail.symm
    | succ i => exact congrArg (_ :: ·) (ih (h.next q) hr)

/-- **Refused programs leave no trace.**  Whatever a session is asked, its replies do not depend on the numbers that
are lost before a program.  And if a program is refused, because it is not read or not fit to run, a session that
is not asked to take it gives the same replies to all other requests. -/
theorem refusals_invisible (limit : Option Nat) (qs : List Request) :
    (initial limit).replies qs = (initial limit).replies (qs.map .unskipped) ∧
      ∀ i r, ((initial limit).replies qs)[i]? = some r → r.verdict.isRefusal →
        (initial limit).replies (qs.eraseIdx i) = ((initial limit).replies qs).eraseIdx i := by
  have h : Reachable (initial limit) := .initial limit
  refine ⟨h.replies_unskipped qs, fun i r hr hrefused => ?_⟩
  rw [h.replies_unskipped qs] at hr ⊢
  rw [h.replies_unskipped (qs.eraseIdx i)]
  exact h.replies_eraseIdx hr hrefused

/-- A variable is declared and printed.  In between a program is refused, which reads a variable in its own
initializer. -/
def ownInitializer : List Request :=
  [⟨3, true, (Scan.ofString "let a = true;").tokens, 0⟩, ⟨3, true, (Scan.ofString "\x7blet b = b;\x7d").tokens, 2⟩,
    ⟨3, true, (Scan.ofString "print a;").tokens, 1⟩]

/-- The variable is printed as if no program had been refused. -/
theorem refusals_invisible_own_initializer :
    (∃ r, ((initial none).replies ownInitializer)[1]? = some r ∧ r.verdict.isRefusal) ∧
      (initial none).replies (ownInitializer.eraseIdx 1) = ((initial none).replies ownInitializer).eraseIdx 1 := by
  let s := (initial none).next ⟨3, true, (Scan.ofString "let a = true;").tokens, 0⟩
  have hrefused : ((s.skip 2).submit 3 true (Scan.ofString "\x7blet b = b;\x7d").tokens).1.verdict.isRefusal = true := by
    simp only [s, Scan.ofString_eq_dispatch]
    cbv
  exact ⟨⟨_, rfl, hrefused⟩, (refusals_invisible none ownInitializer).2 1 _ rfl hrefused⟩

end Session

end ScriptLang

import Mathlib.GroupTheory.GroupAction.MultipleTransitivity
import ScriptLang.Proofs.Counted.Identities
import ScriptLang.Proofs.Tree.OtherNumbers

/-!
# Replies with numbers taken while reading

A session that takes its numbers while it reads gives other numbers to the uses of names than one that numbers the
trees it has read.  But nobody can tell: all replies are the same.

* `read_restores` — one program with the numbers of both ways;
* `Session.repliesBy` — what a session replies if it reads in the given way;
* `Session.repliesBy_read` — the theorem.
-/

namespace ScriptLang

/-- Different numbers can be sent to any others, one by one, by a permutation of all numbers. -/
lemma exists_injective_map {A B : List Nat} (hA : A.Nodup) (hB : B.Nodup) (hlength : A.length = B.length) :
    ∃ g : Nat → Nat, g.Injective ∧ A.map g = B := by
  let x : Fin A.length ↪ Nat := ⟨A.get, List.nodup_iff_injective_get.1 hA⟩
  let y : Fin A.length ↪ Nat := ⟨fun i => B.get (i.cast hlength),
    (List.nodup_iff_injective_get.1 hB).comp (Fin.cast_injective hlength)⟩
  obtain ⟨σ, hσ⟩ : ∃ σ : Equiv.Perm Nat, σ • x = y :=
    have := Equiv.Perm.isMultiplyPretransitive Nat A.length
    MulAction.exists_smul_eq _ x y
  refine ⟨σ, σ.injective, List.ext_getElem (by simp [hlength]) fun i hi hi' => ?_⟩
  rw [List.getElem_map]
  exact DFunLike.congr_fun hσ ⟨i, by simpa using hi⟩

/-! ### One program -/

/-- Two trees with as many uses of names, which are the same if the numbers of the first are sent to those of the
second. -/
structure OneTree (tree tree' : Program OccurrenceId) : Prop where
  length : (ids (uses tree)).length = (ids (uses tree')).length
  relabel : ∀ g, (ids (uses tree)).map g = ids (uses tree') → Stmt.relabelList id g tree = tree'

/-- A program that is read in both ways is the same tree, or there are the same diagnostics. -/
lemma read_restores (ts : List Token) (n m : OccurrenceId) :
    EndsLike OneTree (Program.readThenNumber ts n).1 (Program.read ts m).1 := by
  obtain ⟨-, hread⟩ := Program.read_mirrors ts m
  unfold Program.readThenNumber
  generalize Program.parse ts = result at hread
  generalize (Program.read ts m).1 = result' at hread
  cases hread with
  | error ds => exact .error ds
  | @ok tree' tree h =>
    obtain ⟨rfl, -⟩ := h
    have hspec := Stmt.numberList_spec n (forget tree')
    have hrestored := fun g => Stmt.numberList_restored g n tree'
    have hlength : (uses (Stmt.numberList (forget tree') n).1).length = (uses tree').length :=
      Nat.add_left_cancel (hspec.next.symm.trans (hrestored id).next)
    refine .ok ⟨?_, fun g hg => (hrestored g).tree ?_⟩
    · simp only [ids, List.length_map]
      exact hlength
    · show (List.range' n (uses tree').length).map g = ids (uses tree')
      rw [← hlength]
      exact hspec.ids ▸ hg

/-! ### Sessions -/

namespace Session

section Requests

variable (read : Reader)

/-- What a session replies to a request if it reads in the given way. -/
def replyBy (q : Request) (s : Session) : Reply := s.told ((s.skip q.skipped).submitBy read q.fuel q.install q.tokens)

/-- What a session that reads in the given way replies to one request after another. -/
def repliesBy (s : Session) : List Request → List Reply
  | [] => []
  | q :: qs => s.replyBy read q :: (s.nextBy read q).repliesBy qs

end Requests

/-- The sessions that run number the trees. -/
lemma repliesBy_readThenNumber (s : Session) (qs : List Request) :
    s.repliesBy Program.readThenNumber qs = s.replies qs := by
  induction qs generalizing s with
  | nil => rfl
  | cons q qs ih =>
    have hsubmit := submit_eq_submitBy q.fuel q.install q.tokens (s.skip q.skipped)
    rw [repliesBy, replies, reply_eq, replyBy, ih]
    unfold next nextBy
    rw [hsubmit]

variable {read : Reader} {g : OccurrenceId → OccurrenceId} {s s' : Session} {fuel : Nat} {install : Bool}
variable {tokens : List Token} {earlier later : List Taken}

lemma submitBy_unreadable {ds : List Diagnostic} (hread : (read tokens s.nextId).1 = .error ds) :
    s.submitBy read fuel install tokens = (.unreadable ds, { s with nextId := (read tokens s.nextId).2 }) := by
  unfold submitBy
  generalize read tokens s.nextId = out at hread
  obtain ⟨result, nextId⟩ := out
  obtain rfl : result = _ := hread
  rfl

lemma submitBy_readable {tree : Program OccurrenceId} (hread : (read tokens s.nextId).1 = .ok tree) :
    s.submitBy read fuel install tokens =
      ({ s with nextId := (read tokens s.nextId).2 } : Session).launch fuel install tree := by
  unfold submitBy
  generalize read tokens s.nextId = out at hread
  obtain ⟨result, nextId⟩ := out
  obtain rfl : result = _ := hread
  rfl

/-- The numbers of all uses of names in the programs that were taken. -/
def numbers (taken : List Taken) : List OccurrenceId := ids (taken.flatMap (uses ·.tree))

lemma numbers_append : numbers (earlier ++ later) = numbers earlier ++ numbers later := by
  unfold numbers
  rw [List.flatMap_append, ids_append]

lemma numbers_takes (q : Request) : numbers (s.takes read q).toList =
    match (read q.tokens (s.skip q.skipped).nextId).1 with
    | .ok tree => ids (uses tree)
    | .error _ => [] := by
  unfold takes numbers
  cases (read q.tokens (s.skip q.skipped).nextId).1 with
  | error ds => rfl
  | ok tree => exact congrArg ids (List.append_nil (uses tree))

lemma numbers_takes_length (q : Request) (s s' : Session) :
    (numbers (s.takes Program.readThenNumber q).toList).length = (numbers (s'.takes Program.read q).toList).length := by
  rw [numbers_takes, numbers_takes]
  have hread := read_restores q.tokens (s.skip q.skipped).nextId (s'.skip q.skipped).nextId
  generalize (Program.readThenNumber q.tokens (s.skip q.skipped).nextId).1 = r at hread ⊢
  generalize (Program.read q.tokens (s'.skip q.skipped).nextId).1 = r' at hread ⊢
  cases hread with
  | error ds => rfl
  | ok htree => exact htree.length

lemma numbers_taken_length (qs : List Request) (s s' : Session) :
    (numbers (s.taken Program.readThenNumber qs)).length = (numbers (s'.taken Program.read qs)).length := by
  induction qs generalizing s s' with
  | nil => rfl
  | cons q qs ih =>
    rw [taken, taken, numbers_append, numbers_append, List.length_append, List.length_append,
      numbers_takes_length q s s', ih]

/-- A request in both sessions, where the numbers of the one program are sent to those of the other. -/
lemma Alongside.replyBy (h : Alongside g s s') (hg : g.Injective) (q : Request)
    (hnumbers : (numbers (s.takes Program.readThenNumber q).toList).map g =
      numbers (s'.takes Program.read q).toList) :
    s'.replyBy Program.read q = s.replyBy Program.readThenNumber q ∧
      Alongside g (s.nextBy Program.readThenNumber q) (s'.nextBy Program.read q) := by
  have hskip : ∀ n m, Alongside g { s with nextId := n } { s' with nextId := m } := fun _ _ =>
    ⟨h.resolver, h.resolver', h.machine⟩
  have hread := read_restores q.tokens (s.skip q.skipped).nextId (s'.skip q.skipped).nextId
  rw [numbers_takes, numbers_takes] at hnumbers
  unfold Session.replyBy nextBy
  generalize hr : (Program.readThenNumber q.tokens (s.skip q.skipped).nextId).1 = r at hread hnumbers
  generalize hr' : (Program.read q.tokens (s'.skip q.skipped).nextId).1 = r' at hread hnumbers
  cases hread with
  | error ds =>
    rw [submitBy_unreadable hr, submitBy_unreadable hr']
    exact ⟨h.told hg rfl (hskip _ _), hskip _ _⟩
  | ok htree =>
    obtain rfl := htree.relabel g hnumbers
    rw [submitBy_readable hr, submitBy_readable hr']
    obtain ⟨hverdict, hnext⟩ := (hskip _ _).launch hg q.fuel q.install _
    exact ⟨h.told hg hverdict hnext, hnext⟩

lemma Alongside.repliesBy {qs : List Request} (h : Alongside g s s') (hg : g.Injective)
    (hnumbers : (numbers (s.taken Program.readThenNumber qs)).map g = numbers (s'.taken Program.read qs)) :
    s'.repliesBy Program.read qs = s.repliesBy Program.readThenNumber qs := by
  induction qs generalizing s s' with
  | nil => rfl
  | cons q qs ih =>
    rw [taken, taken, numbers_append, numbers_append, List.map_append] at hnumbers
    obtain ⟨hfirst, hrest⟩ := List.append_inj hnumbers ((List.length_map g).trans (numbers_takes_length q s s'))
    obtain ⟨hreply, hnext⟩ := h.replyBy hg q hfirst
    rw [Session.repliesBy, Session.repliesBy, hreply, ih hnext hrest]

lemma initial_alongside (g : OccurrenceId → OccurrenceId) (limit : Option Nat) :
    Alongside g (initial limit) (initial limit) := by
  let ρ : Renumbering := ⟨g, ∅, ∅, Renumbers.empty.entry⟩
  have hsame : (initial limit).machine.renumber ρ = (initial limit).machine :=
    (Reachable.initial limit).alike.renumber (fun _ hi => absurd hi (Nat.not_lt_zero _)) rfl rfl
  exact ⟨rfl, rfl, Renumbers.empty, ρ, rfl, hsame.symm⟩

/-- **A session that takes its numbers while it reads replies what a session replies that numbers the trees.**  The
numbers of the one are sent to those of the other by a permutation, and no reply depends on them. -/
theorem repliesBy_read (limit : Option Nat) (qs : List Request) :
    (initial limit).repliesBy Program.read qs = (initial limit).replies qs := by
  have hnumbered := ((initial_holds limit).behind readThenNumber_isFresh qs).fresh.nodup
  have hread := ((initial_holds limit).behind read_isFresh qs).fresh.nodup
  obtain ⟨g, hg, hnumbers⟩ := exists_injective_map hnumbered hread (numbers_taken_length qs _ _)
  rw [(initial_alongside g limit).repliesBy hg hnumbers, repliesBy_readThenNumber]

end Session

end ScriptLang

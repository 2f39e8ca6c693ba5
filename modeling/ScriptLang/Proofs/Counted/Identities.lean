import ScriptLang.Counted.Session
import ScriptLang.Proofs.Counted.MirroredPrograms
import ScriptLang.Proofs.Frames.Restoration
import ScriptLang.Proofs.Renumbering.Refusals

/-!
# Identities of uses of names

No two uses of names share a number, in whatever programs they stand.  So the tables of a session never have an
entry under the same number, and the table of its machine is what they are together.

* `IsFresh` — a way to read programs that gives new numbers to their uses of names;
* `readAll`, `Session.taken` — the trees of one program after another, and what a session takes of them;
* `Apart`, `DisjointUnion` — tables without a common entry, and what they are together;
* `Session.Holds`, `Holds.next` — what a session has taken, and that every request keeps it;
* `Session.Separates` — what follows for the table of the machine;
* `Session.identities_apart` — the theorem.
-/

namespace ScriptLang

open Grammar

variable {n m : OccurrenceId} {L T : Locals} {tables : List Locals} {k : OccurrenceId} {d : Nat} {read : Reader}

/-! ### Ways to read -/

/-- The numbers of a program that is read are all different, and they come from the counter. -/
def IsFresh (read : Reader) : Prop :=
  ∀ ts n, n ≤ (read ts n).2 ∧ ∀ tree, (read ts n).1 = .ok tree → Fresh n (read ts n).2 (uses tree)

lemma read_isFresh : IsFresh Program.read := by
  intro ts n
  obtain ⟨hle, hends⟩ := Program.read_mirrors ts n
  refine ⟨hle, fun tree htree => ?_⟩
  rw [htree] at hends
  generalize Program.parse ts = result at hends
  cases hends with
  | ok h => exact h.2

lemma readThenNumber_isFresh : IsFresh Program.readThenNumber := by
  intro ts n
  unfold Program.readThenNumber
  rcases Program.parse ts with ds | tree
  · exact ⟨Nat.le_refl n, nofun⟩
  · have hspec := Stmt.numberList_spec n tree
    refine ⟨Nat.le.intro hspec.next.symm, fun tree' htree' => ?_⟩
    obtain rfl := Except.ok.inj htree'
    exact .of_number hspec

/-- Reads programs one after the other.  The trees of those that can be read are given. -/
def readAll (read : Reader) (n : OccurrenceId) : List (List Token) → List (Program OccurrenceId)
  | [] => []
  | ts :: calls => (read ts n).1.toOption.toList ++ readAll read (read ts n).2 calls

lemma readAll_fresh (hread : IsFresh read) (calls : List (List Token)) (n : OccurrenceId) :
    ∃ m, n ≤ m ∧ Fresh n m ((readAll read n calls).flatMap uses) := by
  induction calls generalizing n with
  | nil => exact ⟨n, Nat.le_refl n, .nil⟩
  | cons ts calls ih =>
    obtain ⟨hle, htree⟩ := hread ts n
    obtain ⟨k, hk, hcalls⟩ := ih (read ts n).2
    refine ⟨k, Nat.le_trans hle hk, ?_⟩
    rw [readAll, List.flatMap_append]
    rcases hresult : (read ts n).1 with ds | tree
    · exact hcalls.mono hle (Nat.le_refl k)
    · have hfirst : Fresh n (read ts n).2 (uses tree ++ []) := (List.append_nil _).symm ▸ htree tree hresult
      exact hfirst.append hle hk hcalls

/-! ### Tables without a common entry -/

/-- No number has an entry in both tables. -/
def Apart (L T : Locals) : Prop := ∀ k ∈ L, k ∉ T

/-- A table with others installed behind it. -/
def unions (L : Locals) (tables : List Locals) : Locals := tables.foldl (· ∪ ·) L

lemma foldl_install (m : Machine) (tables : List Locals) :
    (tables.foldl Machine.install m).locals = unions m.locals tables := by
  induction tables generalizing m with
  | nil => rfl
  | cons T tables ih => exact ih (m.install T)

lemma Apart.union {T' : Locals} (hL : Apart L T') (hT : Apart T T') : Apart (L ∪ T) T' := fun k hk =>
  (Std.TreeMap.mem_union_iff.1 hk).elim (hL k) (hT k)

/-- What is found in tables without a common entry is found in one of them. -/
lemma getElem?_unions (hL : ∀ T ∈ tables, Apart L T) (h : tables.Pairwise Apart) :
    (unions L tables)[k]? = some d ↔ L[k]? = some d ∨ ∃ T ∈ tables, T[k]? = some d := by
  induction tables generalizing L with
  | nil => simp [unions]
  | cons T tables ih =>
    obtain ⟨hT, htables⟩ := List.pairwise_cons.1 h
    obtain ⟨hLT, hL⟩ := List.forall_mem_cons.1 hL
    have hentry : (L ∪ T)[k]? = some d ↔ L[k]? = some d ∨ T[k]? = some d := by
      have hnone : L[k]?.isSome → T[k]? = none := fun hk => by
        have := hLT k (Std.TreeMap.mem_iff_isSome_getElem?.2 hk)
        rwa [Std.TreeMap.mem_iff_isSome_getElem?, Option.not_isSome_iff_eq_none] at this
      rw [Std.TreeMap.getElem?_union]
      cases hl : L[k]? with
      | none => simp
      | some d' => simp [hnone (by simp [hl])]
    show (unions (L ∪ T) tables)[k]? = some d ↔ _
    rw [ih (fun T' hT' => (hL T' hT').union (hT T' hT')) htables, hentry, List.exists_mem_cons_iff, or_assoc]

lemma size_unions (hL : ∀ T ∈ tables, Apart L T) (h : tables.Pairwise Apart) :
    (unions L tables).size = L.size + (tables.map (·.size)).sum := by
  induction tables generalizing L with
  | nil => rfl
  | cons T tables ih =>
    obtain ⟨hT, htables⟩ := List.pairwise_cons.1 h
    obtain ⟨hLT, hL⟩ := List.forall_mem_cons.1 hL
    show (unions (L ∪ T) tables).size = _
    rw [ih (fun T' hT' => (hL T' hT').union (hT T' hT')) htables, Std.TreeMap.size_union_of_not_mem hLT,
      List.map_cons, List.sum_cons, Nat.add_assoc]

/-- **A table is the disjoint union of others**: no two of them have an entry under the same number, and its entries are
theirs. -/
structure DisjointUnion (L : Locals) (tables : List Locals) : Prop where
  apart : tables.Pairwise Apart
  entry : ∀ (k : OccurrenceId) (d : Nat), L[k]? = some d ↔ ∃ T ∈ tables, T[k]? = some d
  size : L.size = (tables.map (·.size)).sum

lemma disjointUnion_unions (h : tables.Pairwise Apart) : DisjointUnion (unions ∅ tables) tables := by
  have hempty : ∀ T ∈ tables, Apart ∅ T := fun T _ k hk => absurd hk Std.TreeMap.not_mem_emptyc
  refine ⟨h, fun k d => ?_, ?_⟩
  · rw [getElem?_unions hempty h, Std.TreeMap.getElem?_emptyc]
    exact or_iff_right nofun
  · rw [size_unions hempty h, Std.TreeMap.size_emptyc, Nat.zero_add]

/-! ### What a session has taken -/

namespace Session

/-- A program that a session has taken: its tree, and the table that was installed for it. -/
structure Taken where
  tree : Program OccurrenceId
  table : Option Locals

/-- The table that is installed for a program: that of its own resolution, if it is accepted. -/
def table? (install : Bool) (program : Program OccurrenceId) (s : Session) : Option Locals :=
  match (s.resolver.resolve program).1 with
  | .error _ => none
  | .ok r => if install then some r.locals else none

section Requests

variable (read : Reader)

/-- What a session takes with a request. -/
def takes (q : Request) (s : Session) : Option Taken :=
  (read q.tokens (s.skip q.skipped).nextId).1.toOption.map fun tree => ⟨tree, s.table? q.install tree⟩

/-- The session behind a request. -/
def nextBy (q : Request) (s : Session) : Session :=
  ((s.skip q.skipped).submitBy read q.fuel q.install q.tokens).2

/-- What a session takes with one request after another. -/
def taken (s : Session) : List Request → List Taken
  | [] => []
  | q :: qs => (s.takes read q).toList ++ (s.nextBy read q).taken qs

/-- The session behind all requests. -/
def behind (s : Session) (qs : List Request) : Session := qs.foldl (fun s q => s.nextBy read q) s

end Requests

/-- The tables that were installed. -/
def installed (taken : List Taken) : List Locals := taken.filterMap (·.table)

variable {s : Session} {earlier : List Taken} {fuel : Nat} {install : Bool} {program : Program OccurrenceId}

lemma installed_append {table : Option Locals} :
    installed (earlier ++ [⟨program, table⟩]) = installed earlier ++ table.toList := by
  unfold installed
  rw [List.filterMap_append]
  cases table <;> rfl

/-- **What holds of a session that has taken some programs.**  Their numbers are all different and were taken from the
counter; each table is about uses in its own program; and the table of the machine is what they are together. -/
structure Holds (s : Session) (taken : List Taken) : Prop where
  resolver : s.resolver = .empty
  fresh : Fresh 0 s.nextId (taken.flatMap (uses ·.tree))
  own : ∀ t ∈ taken, ∀ T ∈ t.table, ∀ k ∈ T, k ∈ ids (uses t.tree)
  locals : s.machine.locals = unions ∅ (installed taken)

lemma table?_own (hs : s.resolver = .empty) : ∀ T ∈ s.table? install program, ∀ k ∈ T, k ∈ ids (uses program) := by
  intro T hT k hk
  unfold table? at hT
  rw [hs] at hT
  split at hT
  · cases hT
  · next r hr =>
    split at hT
    · obtain rfl : r.locals = T := Option.some.inj hT
      refine by_contra fun hout => ?_
      rw [Std.TreeMap.mem_iff_isSome_getElem?, resolve_outside hr hout] at hk
      cases hk
    · cases hT

/-- A program that is launched changes the table of the machine only by its own table. -/
lemma launch_locals : (s.launch fuel install program).2.machine.locals =
    unions s.machine.locals (s.table? install program).toList := by
  unfold launch table?
  rcases s.resolver.resolve program with ⟨rejection | r, resolver⟩
  · rfl
  · cases install
    · exact (runProgram_grown fuel program s.machine).locals
    · exact (runProgram_grown fuel program (s.machine.install r.locals)).locals

/-- Every request keeps it. -/
lemma Holds.next (h : Holds s earlier) (hread : IsFresh read) (q : Request) :
    Holds (s.nextBy read q) (earlier ++ (s.takes read q).toList) := by
  obtain ⟨hresolver, hfresh, hown, hlocals⟩ := h
  have hskip : s.nextId ≤ (s.skip q.skipped).nextId := Nat.le_add_right _ _
  obtain ⟨hle, htree⟩ := hread q.tokens (s.skip q.skipped).nextId
  unfold nextBy submitBy takes
  generalize read q.tokens (s.skip q.skipped).nextId = r at hle htree
  obtain ⟨ds | tree, nextId⟩ := r
  · show Holds { s with nextId } (earlier ++ [])
    rw [List.append_nil]
    exact ⟨hresolver, hfresh.mono (Nat.le_refl 0) (Nat.le_trans hskip hle), hown, hlocals⟩
  · let s' : Session := { s with nextId }
    show Holds (s'.launch q.fuel q.install tree).2 (earlier ++ [⟨tree, s'.table? q.install tree⟩])
    have hresolver' : s'.resolver = .empty := hresolver
    refine ⟨launch_resolver hresolver', ?_, ?_, ?_⟩
    · rw [launch_nextId, List.flatMap_append, List.flatMap_singleton]
      exact (hfresh.mono (Nat.le_refl 0) hskip).append (Nat.zero_le _) hle (htree tree rfl)
    · exact List.forall_mem_append.2 ⟨hown, List.forall_mem_singleton.2 (table?_own hresolver')⟩
    · rw [launch_locals]
      show unions s.machine.locals _ = _
      rw [hlocals, installed_append]
      exact List.foldl_append.symm

lemma Holds.behind (h : Holds s earlier) (hread : IsFresh read) (qs : List Request) :
    Holds (s.behind read qs) (earlier ++ s.taken read qs) := by
  induction qs generalizing s earlier with
  | nil =>
    rw [taken, List.append_nil]
    exact h
  | cons q qs ih =>
    rw [taken, ← List.append_assoc]
    exact ih (h.next hread q)

lemma initial_holds (limit : Option Nat) : Holds (initial limit) [] :=
  ⟨rfl, .nil, List.forall_mem_nil _, rfl⟩

/-! ### What follows for the table of the machine -/

namespace Holds

/-- No two programs have a number in common. -/
lemma disjoint (h : Holds s earlier) :
    earlier.Pairwise fun t t' => List.Disjoint (ids (uses t.tree)) (ids (uses t'.tree)) := by
  have hnodup := h.fresh.nodup
  unfold ids at hnodup
  rw [List.map_flatMap] at hnodup
  exact (List.nodup_flatMap.1 hnodup).2

lemma apart (h : Holds s earlier) : (installed earlier).Pairwise Apart := by
  refine List.pairwise_filterMap.2 (h.disjoint.imp_of_mem fun ht ht' hd T hT T' hT' k hk hk' => ?_)
  exact hd (h.own _ ht T hT k hk) (h.own _ ht' T' hT' k hk')

/-- **The table of the machine is the disjoint union of the tables that were installed.** -/
lemma disjointUnion (h : Holds s earlier) : DisjointUnion s.machine.locals (installed earlier) :=
  h.locals ▸ disjointUnion_unions h.apart

/-- A number stands in one program only. -/
lemma same (h : Holds s earlier) {t t' : Taken} (ht : t ∈ earlier) (ht' : t' ∈ earlier)
    (hk : k ∈ ids (uses t.tree)) (hk' : k ∈ ids (uses t'.tree)) : t = t' := by
  have : Std.Symm fun t t' : Taken => List.Disjoint (ids (uses t.tree)) (ids (uses t'.tree)) := ⟨fun _ _ h => h.symm⟩
  exact by_contra fun hne => h.disjoint.forall ht ht' hne hk hk'

/-- A use of a name finds what the table of its own program says. -/
lemma found (h : Holds s earlier) {t : Taken} (ht : t ∈ earlier) (hk : k ∈ ids (uses t.tree)) :
    s.machine.locals[k]? = t.table.bind (·[k]?) := by
  refine Option.ext fun d => ?_
  rw [h.disjointUnion.entry, Option.bind_eq_some_iff]
  constructor
  · rintro ⟨T, hT, hd⟩
    obtain ⟨t', ht', hT⟩ := List.mem_filterMap.1 hT
    have hmem : k ∈ T := Std.TreeMap.mem_iff_isSome_getElem?.2 (by rw [hd]; rfl)
    obtain rfl := h.same ht ht' hk (h.own t' ht' T hT k hmem)
    exact ⟨T, hT, hd⟩
  · rintro ⟨T, hT, hd⟩
    exact ⟨T, List.mem_filterMap.2 ⟨t, ht, hT⟩, hd⟩

end Holds

/-- **The programs that were taken do not get in the way of each other**: their uses of names have different numbers,
the table of the machine is the disjoint union of theirs, whatever the order in which they are installed, and every use
of a name finds what the table of its own program says of it, or nothing if that was not installed. -/
structure Separates (taken : List Taken) (locals : Locals) : Prop where
  nodup : (ids (taken.flatMap (Stmt.occurrencesList ·.tree))).Nodup
  union : DisjointUnion locals (installed taken)
  order : ∀ (limit : Option Nat) (tables : List Locals), tables.Perm (installed taken) →
    (tables.foldl Machine.install (.initial limit)).locals.Equiv locals
  found : ∀ t ∈ taken, ∀ use ∈ Stmt.occurrencesList t.tree, locals[use.id]? = t.table.bind (·[use.id]?)

lemma Holds.separates (h : Holds s earlier) : Separates earlier s.machine.locals := by
  refine ⟨h.fresh.nodup, h.disjointUnion, fun limit tables hperm => ?_, fun t ht use huse => ?_⟩
  · have hother : DisjointUnion (tables.foldl Machine.install (.initial limit)).locals tables := by
      rw [foldl_install]
      exact disjointUnion_unions (hperm.symm.pairwise h.apart fun hLT k hk hk' => hLT k hk' hk)
    refine .of_forall_constGet?_eq fun k => Option.ext fun d => ?_
    rw [hother.entry, h.disjointUnion.entry]
    exact exists_congr fun T => and_congr_left' hperm.mem_iff
  · exact h.found ht (List.mem_map_of_mem huse)

lemma behind_separates (hread : IsFresh read) (limit : Option Nat) (qs : List Request) :
    Separates ((initial limit).taken read qs) ((initial limit).behind read qs).machine.locals :=
  ((initial_holds limit).behind hread qs).separates

/-- **No two uses of names share a number.**  Numbers are taken while programs are read, from any next free number on,
and some programs cannot be read: the numbers of all uses of names in all trees are different.  So it is in a session,
where more numbers may be lost before each request, and the programs that it takes do not get in the way of each
other. -/
theorem identities_apart (limit : Option Nat) (n : OccurrenceId) (calls : List (List Token)) (qs : List Request) :
    (ids ((readAll Program.read n calls).flatMap Stmt.occurrencesList)).Nodup ∧
      Separates ((initial limit).taken Program.read qs) ((initial limit).behind Program.read qs).machine.locals := by
  obtain ⟨m, -, hcalls⟩ := readAll_fresh read_isFresh calls n
  exact ⟨hcalls.nodup, behind_separates read_isFresh limit qs⟩

/-- A block with an assignment to a local variable is submitted twice, and something that cannot be read in between. -/
def blockTwice : List Request :=
  let block : List Token := [⟨.symbol .leftBrace, "\x7b", 1⟩, ⟨.keyword .letKw, "let", 1⟩, ⟨.identifier, "a", 1⟩,
    ⟨.symbol .semicolon, ";", 1⟩, ⟨.identifier, "a", 1⟩, ⟨.symbol .equal, "=", 1⟩, ⟨.identifier, "a", 1⟩,
    ⟨.symbol .semicolon, ";", 1⟩, ⟨.symbol .rightBrace, "\x7d", 1⟩]
  [⟨0, true, block, 0⟩, ⟨0, true, [⟨.identifier, "a", 1⟩], 2⟩, ⟨0, true, block, 0⟩]

/-- Numbers are lost for the variable that is assigned to and for what cannot be read.  The tables can be installed the
other way round. -/
theorem identities_apart_block :
    (installed ((initial none).taken Program.read blockTwice)).map (·.toList) = [[(1, 0), (2, 0)], [(7, 0), (8, 0)]] ∧
      ((initial none).behind Program.read blockTwice).machine.locals.size = 4 ∧
      ((installed ((initial none).taken Program.read blockTwice)).reverse.foldl Machine.install
        (.initial none)).locals.Equiv ((initial none).behind Program.read blockTwice).machine.locals := by
  obtain ⟨-, hseparates⟩ := identities_apart none 0 [] blockTwice
  refine ⟨by cbv, ?_, hseparates.order none _ (List.reverse_perm _)⟩
  rw [hseparates.union.size]
  cbv

/-- The same holds of a session that numbers the trees. -/
theorem separates_numbered (limit : Option Nat) (qs : List Request) :
    Separates ((initial limit).taken Program.readThenNumber qs)
      (qs.foldl (fun s q => s.next q) (initial limit)).machine.locals := by
  have hnext : (fun s q => s.next q) = fun (s : Session) q => s.nextBy Program.readThenNumber q := by
    funext s q
    exact congrArg Prod.snd (submit_eq_submitBy ..)
  rw [hnext]
  exact behind_separates readThenNumber_isFresh limit qs

end Session

end ScriptLang

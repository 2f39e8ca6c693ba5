import Mathlib.Data.List.Perm.Basic
import ScriptLang.Proofs.Loops.ChartedRuns
import ScriptLang.Proofs.Loops.ThinnedScopes
import ScriptLang.Proofs.Splitting.Submissions

/-!
# Sessions that run programs as they are written

Of two sessions that are asked the same, one runs the trees and the other one runs the programs as they are written.
Nothing that they reply tells which is which.

* `Session.Charted` — what both have in common between programs;
* `Session.distances`, `Charted.starts` — the distances in both with one more program, and the machines that run it;
* `Charted.submit` — one more program is taken in the same way;
* `Session.Twins`, `Twins.replies` — sessions that have been asked the same, and that they go on replying the same.
-/

namespace ScriptLang

open Resolving

/-- Tables with entries for the same uses have as many entries. -/
lemma size_eq_of_isSome {L L' : Locals} (h : ∀ k : OccurrenceId, L'[k]?.isSome = L[k]?.isSome) :
    L'.size = L.size := by
  have hmem : ∀ k, k ∈ L'.keys ↔ k ∈ L.keys := fun k => by
    rw [Std.TreeMap.mem_keys, Std.TreeMap.mem_keys, Std.TreeMap.mem_iff_isSome_getElem?,
      Std.TreeMap.mem_iff_isSome_getElem?, h]
  have hperm : L'.keys.Perm L.keys :=
    (List.perm_ext_iff_of_nodup Std.TreeMap.nodup_keys Std.TreeMap.nodup_keys).2 hmem
  rw [← Std.TreeMap.length_keys, hperm.length_eq, Std.TreeMap.length_keys]

/-- A use has a distance in the tree if it has one in the source. -/
lemma Distances.Agree.isSome {T : Distances} {l : Layers} {k : OccurrenceId} (h : T.Agree l k) :
    T.source[k]?.isSome = T.tree[k]?.isSome := by
  rcases hk : T.tree[k]? with _ | d
  · rw [h.unknown hk]
  · rw [(h.known d hk).2]
    rfl

/-- The same machine, when more numbers are taken. -/
lemma Machine.Charted.laterNext {m m' : Machine} {L L' : Locals} {n n' : OccurrenceId} {w : Chart}
    (h : m.Charted ⟨L, L', n⟩ w m') (hn : n ≤ n') : m.Charted ⟨L, L', n'⟩ w m' := by
  obtain rfl : m.locals = L := h.tree
  obtain rfl : m'.locals = L' := h.source
  have hT : Distances.Extends ⟨m.locals, m'.locals, n⟩ ⟨m.locals, m'.locals, n'⟩ :=
    ⟨hn, fun _ _ => rfl, fun _ _ => rfl⟩
  exact h.install hT

namespace Session

variable {s s' : Session} {fuel : Nat} {install : Bool} {tokens : List Token} {tree : Program Unit}
  {res res' : Resolution}

/-! ### The three ends of a program that is run as it is written -/

section Ends

lemma source_submit_unreadable {ds : List Diagnostic} (hparse : Program.parse tokens = .error ds) :
    Source.submit fuel install tokens s = (.unreadable ds, s) := by
  unfold Source.submit
  rw [hparse]

lemma source_submit_rejected {rejection : Rejection} (hparse : Program.parse tokens = .ok tree)
    (hres : (Source.resolve s.resolver (s.numbered tree)).1 = .error rejection) :
    Source.submit fuel install tokens s = (.rejected rejection,
      { s with nextId := (tree.number s.nextId).2, resolver := (Source.resolve s.resolver (s.numbered tree)).2 }) := by
  unfold numbered at *
  rcases hnum : tree.number s.nextId with ⟨program, n'⟩
  rw [hnum] at hres
  unfold Source.submit
  simp only [hparse, hnum, hres]

lemma source_submit_ran (hparse : Program.parse tokens = .ok tree)
    (hres : (Source.resolve s.resolver (s.numbered tree)).1 = .ok res) :
    let ran := Source.runProgram fuel (s.numbered tree)
      { s.machine with locals := tableWith install s.machine.locals res.locals }
    Source.submit fuel install tokens s = (.ran res.warnings ran.1,
      ⟨(tree.number s.nextId).2, (Source.resolve s.resolver (s.numbered tree)).2, ran.2⟩) := by
  unfold tableWith numbered at *
  rcases hnum : tree.number s.nextId with ⟨program, n'⟩
  rw [hnum] at hres
  unfold Source.submit
  simp only [hparse, hnum, hres]
  cases install <;> rfl

end Ends

/-! ### Between programs -/

/-- **The same session**, but for the frames that only the tree has, and for the distances. -/
structure Charted (s s' : Session) : Prop where
  nextId : s'.nextId = s.nextId
  resolver : s.resolver = .empty
  resolver' : s'.resolver = .empty
  current : s.machine.current = globalFrame
  free : ∀ k ≥ s.nextId, s.machine.locals[k]? = none ∧ s'.machine.locals[k]? = none
  entries : ∀ k : OccurrenceId, s'.machine.locals[k]?.isSome = s.machine.locals[k]?.isSome
  machines : ∃ w, s.machine.Charted ⟨s.machine.locals, s'.machine.locals, s.nextId⟩ w s'.machine

/-- The distances in both sessions, with those of one more program. -/
def distances (install : Bool) (s s' : Session) (tree : Program Unit) (res res' : Resolution) : Distances where
  tree := tableWith install s.machine.locals res.locals
  source := tableWith install s'.machine.locals res'.locals
  next := (tree.number s.nextId).2

lemma nodup_numbered (s : Session) (tree : Program Unit) : (ids (Stmt.occurrencesList (s.numbered tree))).Nodup := by
  unfold numbered Program.number
  rw [(Stmt.numberList_spec s.nextId tree).ids]
  exact List.nodup_range' ..

namespace Charted

lemma initial (limit : Option Nat) : Charted (initial limit) (initial limit) := by
  refine ⟨rfl, rfl, rfl, rfl, fun _ _ => ⟨Std.TreeMap.getElem?_emptyc, Std.TreeMap.getElem?_emptyc⟩, fun _ => rfl,
    [⟨globalFrame, []⟩], ?_⟩
  have honly : ∀ i < [(⟨globalFrame, []⟩ : Spot)].length, i = globalFrame := fun i hi => Nat.lt_one_iff.1 hi
  refine ⟨⟨rfl, Nat.one_pos, rfl, ?_, ?_, ?_, ?_⟩, rfl, fun _ => .nil, rfl, rfl, Nat.one_pos, rfl, rfl, rfl⟩
  · intro i hi
    rw [honly i hi]
    exact Nat.one_pos
  · intro i hi _
    rw [honly i hi]
    exact empty_charted
  · intro i hi
    rw [honly i hi]
    exact .outermost rfl rfl
  · intro i j hij hj _
    exact absurd hij (honly j hj ▸ Nat.not_lt_zero i)

/-- Numbers that are lost do not matter. -/
lemma skip (h : Charted s s') (k : Nat) : Charted (s.skip k) (s'.skip k) := by
  obtain ⟨w, hw⟩ := h.machines
  have hle : s.nextId ≤ s.nextId + k := Nat.le_add_right ..
  refine ⟨congrArg (· + k) h.nextId, h.resolver, h.resolver', h.current, fun i hi => h.free i (Nat.le_trans hle hi),
    h.entries, w, ?_⟩
  exact hw.laterNext hle

/-! ### One more program -/

variable (h : Charted s s') (hc : res.Concurs (s.numbered tree) res')

include h in
lemma numbered_eq (tree : Program Unit) : s'.numbered tree = s.numbered tree := by
  unfold numbered
  rw [h.nextId]

include hc

/-- The distances of older programs stay as they are. -/
lemma distances_extend (install : Bool) : Distances.Extends ⟨s.machine.locals, s'.machine.locals, s.nextId⟩
    (distances install s s' tree res res') := by
  have hnone : ∀ k < s.nextId, res.locals[k]? = none ∧ res'.locals[k]? = none := fun k hk =>
    hc.outside k fun hmem => Nat.not_lt.2 ((mem_ids_number ..).1 hmem).1 hk
  refine ⟨le_number _ tree, fun k hk => ?_, fun k hk => ?_⟩
  · show (tableWith install s.machine.locals res.locals)[k]? = _
    rw [getElem?_tableWith, (hnone k hk).1]
    cases install <;> rfl
  · show (tableWith install s'.machine.locals res'.locals)[k]? = _
    rw [getElem?_tableWith, (hnone k hk).2]
    cases install <;> rfl

include h

omit hc in
/-- The uses in the program have its distances, or none if they are not installed. -/
lemma distances_cover (install : Bool) : (distances install s s' tree res res').Covers
    (ids (Stmt.occurrencesList (s.numbered tree))) res.locals res'.locals := by
  intro k hk
  obtain ⟨hle, hlt⟩ := (mem_ids_number ..).1 hk
  obtain ⟨hfree, hfree'⟩ := h.free k hle
  refine ⟨hlt, ?_⟩
  show (tableWith install s.machine.locals res.locals)[k]? = _ ∧
      (tableWith install s'.machine.locals res'.locals)[k]? = _ ∨
    (tableWith install s.machine.locals res.locals)[k]? = none ∧
      (tableWith install s'.machine.locals res'.locals)[k]? = none
  rw [getElem?_tableWith, getElem?_tableWith, hfree, hfree']
  cases install with
  | true => exact .inl ⟨Option.or_none, Option.or_none⟩
  | false => exact .inr ⟨rfl, rfl⟩

/-- The program fits the global level. -/
lemma fits (install : Bool) : Stmt.FitListIn (distances install s s' tree res res') [] (s.numbered tree) :=
  hc.fits _ (h.distances_cover install)

/-- The machines that run the program. -/
lemma starts (install : Bool) : ∃ w, Machine.Charted (distances install s s' tree res res') w
    { s.machine with locals := tableWith install s.machine.locals res.locals }
      { s'.machine with locals := tableWith install s'.machine.locals res'.locals } ∧
    w.layers s.machine.current = [] := by
  obtain ⟨w, hw⟩ := h.machines
  refine ⟨w, hw.install (distances_extend hc install), ?_⟩
  rw [h.current]
  exact hw.frames.layers_global

omit h in
/-- The program has distances for the same uses in both. -/
lemma same_entries (k : OccurrenceId) : res'.locals[k]?.isSome = res.locals[k]?.isSome := by
  by_cases hk : k ∈ ids (Stmt.occurrencesList (s.numbered tree))
  · let T : Distances := ⟨res.locals, res'.locals, (tree.number s.nextId).2⟩
    have hcover : T.Covers (ids (Stmt.occurrencesList (s.numbered tree))) res.locals res'.locals := fun i hi =>
      ⟨((mem_ids_number ..).1 hi).2, .inl ⟨rfl, rfl⟩⟩
    obtain ⟨o, ho, rfl⟩ := List.mem_map.1 hk
    obtain ⟨l, hagree⟩ := Stmt.FitListIn.agree _ (hc.fits T hcover) o ho
    exact hagree.isSome
  · obtain ⟨hnone, hnone'⟩ := hc.outside k hk
    rw [hnone, hnone']

/-- Behind the program there are entries for the same uses in both. -/
lemma entries_with (install : Bool) (k : OccurrenceId) :
    (tableWith install s'.machine.locals res'.locals)[k]?.isSome =
      (tableWith install s.machine.locals res.locals)[k]?.isSome := by
  rw [getElem?_tableWith, getElem?_tableWith]
  cases install with
  | false => exact h.entries k
  | true =>
    rw [if_pos rfl, if_pos rfl, Option.isSome_or, Option.isSome_or, same_entries hc, h.entries]

/-- Numbers that are free behind the program have no entry. -/
lemma free_behind (install : Bool) (k : OccurrenceId) (hk : k ≥ (tree.number s.nextId).2) :
    (tableWith install s.machine.locals res.locals)[k]? = none ∧
      (tableWith install s'.machine.locals res'.locals)[k]? = none := by
  obtain ⟨hfree, hfree'⟩ := h.free k (Nat.le_trans (le_number _ tree) hk)
  obtain ⟨hnone, hnone'⟩ := hc.outside k fun hmem => Nat.not_lt.2 hk ((mem_ids_number ..).1 hmem).2
  rw [getElem?_tableWith, getElem?_tableWith, hfree, hfree', hnone, hnone']
  cases install <;> exact ⟨rfl, rfl⟩

omit hc

/-- **One more program is taken in the same way** by both sessions. -/
theorem submit (fuel : Nat) (install : Bool) (tokens : List Token) :
    (Source.submit fuel install tokens s').1 = (s.submit fuel install tokens).1 ∧
      Charted (s.submit fuel install tokens).2 (Source.submit fuel install tokens s').2 := by
  rcases hparse : Program.parse tokens with ds | tree
  · rw [submit_unreadable hparse, source_submit_unreadable hparse]
    exact ⟨rfl, h⟩
  have hnumbered : s'.numbered tree = s.numbered tree := h.numbered_eq tree
  have hnext : (tree.number s'.nextId).2 = (tree.number s.nextId).2 := by rw [h.nextId]
  have hleft : (s.resolver.resolve (s.numbered tree)).2 = .empty := resolve_snd (congrArg Resolver.scopes h.resolver)
  have hright : (Source.resolve s'.resolver (s'.numbered tree)).2 = .empty := by
    rw [h.resolver']
    exact source_resolve_snd _
  obtain ⟨rejection, hres, hres'⟩ | ⟨res, res', hres, hres', hc⟩ := resolve_concur (nodup_numbered s tree)
  · rw [← h.resolver] at hres
    rw [← h.resolver', ← hnumbered] at hres'
    rw [submit_rejected hparse hres, source_submit_rejected hparse hres', hleft, hright, hnext]
    obtain ⟨w, hw⟩ := h.machines
    have hle := le_number s.nextId tree
    refine ⟨rfl, rfl, rfl, rfl, h.current, fun k hk => h.free k (Nat.le_trans hle hk), h.entries, w, ?_⟩
    exact hw.laterNext hle
  · rw [← h.resolver] at hres
    rw [← h.resolver', ← hnumbered] at hres'
    rw [submit_ran hparse hres, source_submit_ran hparse hres', hleft, hright, hnext, hnumbered]
    obtain ⟨w, hstart, hlayers⟩ := h.starts hc install
    obtain ⟨hresult, w', hend⟩ := runProgram_sideBySide fuel (h.fits hc install) hstart hlayers
    have htree : (s.runWith fuel install tree res.locals).2.locals = tableWith install s.machine.locals res.locals :=
      hend.charted.tree
    have hsource := hend.charted.source
    refine ⟨?_, rfl, rfl, rfl, hend.current.trans h.current, fun k hk => ?_, fun k => ?_, w', ?_⟩
    · rw [hresult, hc.warnings]
      rfl
    · simp only [htree, hsource]
      exact h.free_behind hc install k hk
    · simp only [htree, hsource]
      exact h.entries_with hc install k
    · simp only [htree, hsource]
      exact hend.charted

/-! ### What is replied -/

/-- The output is the same, and so are the global names and the number of entries. -/
lemma told {out out' : Answer × Session} (hanswer : out'.1 = out.1) (hnext : Charted out.2 out'.2) :
    s'.told out' = s.told out := by
  obtain ⟨w, hw⟩ := h.machines
  obtain ⟨w', hw'⟩ := hnext.machines
  have hframe := hw'.frames.globals
  have hglobals : out'.2.machine.globals = out.2.machine.globals := by
    unfold Machine.globals Table.sortedNames
    rw [hframe.mutables.names]
  have hconstants : out'.2.machine.constants = out.2.machine.constants := by
    unfold Machine.constants Table.sortedNames
    rw [hframe.constants.names]
  unfold Session.told output
  rw [hanswer, hw.sink, hw'.sink, hglobals, hconstants, size_eq_of_isSome hnext.entries]

/-- A request is answered in the same way. -/
lemma answer (q : Request) : s'.told (Source.answer q s') = s.reply q ∧
    Charted (s.next q) (Source.answer q s').2 := by
  obtain ⟨hanswer, hnext⟩ := (h.skip q.skipped).submit q.fuel q.install q.tokens
  exact ⟨h.told hanswer hnext, hnext⟩

end Charted

/-! ### Sessions that are asked the same -/

/-- Two sessions that have been asked the same.  The first one runs the trees, the second one runs the programs as
they are written. -/
inductive Twins : Session → Session → Prop
  | initial (limit : Option Nat) : Twins (initial limit) (initial limit)
  | next {s s' : Session} (q : Request) : Twins s s' → Twins (s.next q) (Source.answer q s').2

namespace Twins

lemma charted (h : Twins s s') : Charted s s' := by
  induction h with
  | initial limit => exact .initial limit
  | next q _ ih => exact (ih.answer q).2

/-- **Nothing that is replied tells whether trees are run** or programs as they are written. -/
theorem replies (h : Twins s s') (qs : List Request) : Source.replies s' qs = s.replies qs := by
  induction qs generalizing s s' with
  | nil => rfl
  | cons q qs ih =>
    rw [Source.replies, Session.replies, (h.charted.answer q).1, ih (h.next q)]

end Twins

end Session

end ScriptLang

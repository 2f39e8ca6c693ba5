import Mathlib.Data.List.Nodup
import Mathlib.Data.List.Perm.Basic
import ScriptLang.Proofs.Addressing.TopLevel
import ScriptLang.Proofs.Tree.ResolvingRelabelled

/-!
# Resolving with other numbers

With other numbers of its uses of names, a program is resolved with the same warnings and the same errors, and the
distances are entered under the other numbers.

* `Renumbers` — a table with the same entries under other numbers;
* `Renumbers.size`, `Renumbers.union` — such tables have as many entries, and can be put together;
* `Along`, `KeepsAlong` — resolvers side by side, and computations that keep them so;
* `resolve_along` — the theorem for programs.
-/

namespace ScriptLang

variable {g : OccurrenceId → OccurrenceId}

/-! ### Tables -/

/-- The second table has the entries of the first one under other numbers, and no others. -/
structure Renumbers (g : OccurrenceId → OccurrenceId) (L L' : Locals) : Prop where
  entry : ∀ k : OccurrenceId, L'[g k]? = L[k]?
  only : ∀ k' ∈ L', ∃ k, g k = k'

namespace Renumbers

variable {L L' T T' : Locals}

lemma empty : Renumbers g ∅ ∅ :=
  ⟨fun _ => Std.TreeMap.getElem?_emptyc.trans Std.TreeMap.getElem?_emptyc.symm,
    fun _ h => absurd h Std.TreeMap.not_mem_emptyc⟩

lemma insert (hg : g.Injective) (h : Renumbers g L L') (k : OccurrenceId) (d : Nat) :
    Renumbers g (L.insert k d) (L'.insert (g k) d) := by
  refine ⟨fun i => ?_, fun i hi => ?_⟩
  · simp only [Std.TreeMap.getElem?_insert, Std.compare_eq_iff_eq, hg.eq_iff, h.entry i]
  · rcases Std.TreeMap.mem_insert.1 hi with heq | hi
    · exact ⟨k, Std.compare_eq_iff_eq.1 heq⟩
    · exact h.only i hi

lemma union (h : Renumbers g L L') (h' : Renumbers g T T') : Renumbers g (L ∪ T) (L' ∪ T') := by
  refine ⟨fun k => ?_, fun k hk => ?_⟩
  · rw [Std.TreeMap.getElem?_union, Std.TreeMap.getElem?_union, h.entry, h'.entry]
  · rcases Std.TreeMap.mem_union_iff.1 hk with hk | hk
    · exact h.only k hk
    · exact h'.only k hk

/-- There are as many entries as before. -/
lemma size (hg : g.Injective) (h : Renumbers g L L') : L'.size = L.size := by
  have hmem : ∀ k, g k ∈ L' ↔ k ∈ L := fun k => by
    rw [Std.TreeMap.mem_iff_isSome_getElem?, Std.TreeMap.mem_iff_isSome_getElem?, h.entry]
  have hperm : L'.keys.Perm (L.keys.map g) := by
    refine (List.perm_ext_iff_of_nodup Std.TreeMap.nodup_keys (Std.TreeMap.nodup_keys.map hg)).2 fun k' => ?_
    rw [Std.TreeMap.mem_keys, List.mem_map]
    constructor
    · intro hk'
      obtain ⟨k, rfl⟩ := h.only k' hk'
      exact ⟨k, Std.TreeMap.mem_keys.2 ((hmem k).1 hk'), rfl⟩
    · rintro ⟨k, hk, rfl⟩
      exact (hmem k).2 (Std.TreeMap.mem_keys.1 hk)
  rw [← Std.TreeMap.length_keys, hperm.length_eq, List.length_map, Std.TreeMap.length_keys]

end Renumbers

namespace Resolving

/-! ### Resolvers side by side -/

/-- The same scopes and the same warnings, and the same entries under other numbers. -/
structure Along (g : OccurrenceId → OccurrenceId) (r r' : Resolver) : Prop where
  scopes : r'.scopes = r.scopes
  warnings : r'.warnings = r.warnings
  locals : Renumbers g r.locals r'.locals

/-- Two outcomes, both without an error or both with the same one. -/
inductive EndsAlong (g : OccurrenceId → OccurrenceId) :
    EStateM.Result ScopeError Resolver Unit → EStateM.Result ScopeError Resolver Unit → Prop
  | ok {q q' : Resolver} : Along g q q' → EndsAlong g (.ok () q) (.ok () q')
  | error {e : ScopeError} {q q' : Resolver} : Along g q q' → EndsAlong g (.error e q) (.error e q')

/-- From resolvers side by side, the computations have the same outcome, and leave resolvers side by side. -/
def KeepsAlong (g : OccurrenceId → OccurrenceId) (x x' : Resolving Unit) : Prop :=
  ∀ r r' : Resolver, Along g r r' → EndsAlong g (x r) (x' r')

variable {x x' y y' : Resolving Unit}

lemma KeepsAlong.pure : KeepsAlong g (pure ()) (pure ()) := fun _ _ h => .ok h

lemma KeepsAlong.bind (h : KeepsAlong g x x') (h' : KeepsAlong g y y') :
    KeepsAlong g (do x; y) (do x'; y') := by
  intro r r' hr
  have hx := h r r' hr
  rcases hxr : x r with ⟨⟨⟩, q⟩ | ⟨e, q⟩
  · rw [hxr] at hx
    generalize hxr' : x' r' = out at hx
    cases hx with
    | ok hq =>
      rw [Traced.bind_ok hxr, Traced.bind_ok hxr']
      exact h' _ _ hq
  · rw [hxr] at hx
    generalize hxr' : x' r' = out at hx
    cases hx with
    | error hq =>
      rw [Traced.bind_error hxr, Traced.bind_error hxr']
      exact .error hq

/-- A change of the scopes that depends on the scopes alone. -/
lemma KeepsAlong.scopes (change : List Scope → List Scope) :
    KeepsAlong g (modify fun r => { r with scopes := change r.scopes })
      (modify fun r => { r with scopes := change r.scopes }) :=
  fun _ _ h => .ok ⟨congrArg change h.scopes, h.warnings, h.locals⟩

lemma bind_along (text : String) (b : Binding) :
    KeepsAlong g (Resolving.bind text b) (Resolving.bind text b) := by
  intro r r' h
  rcases r with ⟨_ | ⟨scope, outer⟩, locals, warnings⟩ <;> rcases r' with ⟨scopes', locals', warnings'⟩ <;>
    obtain rfl : scopes' = _ := h.scopes
  · exact .ok h
  · exact .ok ⟨rfl, h.warnings, h.locals⟩

lemma warnIf_along (c : Bool) (w : ScopeWarning) : KeepsAlong g (warnIf c w) (warnIf c w) := by
  intro r r' h
  cases c
  · exact .ok h
  · exact .ok ⟨h.scopes, congrArg (· ++ [w]) h.warnings, h.locals⟩

lemma declare_along (name : Ident) : KeepsAlong g (declare name) (declare name) := by
  intro r r' h
  obtain ⟨again, hr, hr'⟩ : ∃ again, isBound name.text r = .ok again r ∧ isBound name.text r' = .ok again r' := by
    refine ⟨_, rfl, ?_⟩
    rw [← h.scopes]
    rfl
  unfold declare
  rw [Traced.bind_ok hr, Traced.bind_ok hr']
  exact (bind_along name.text .declared).bind (warnIf_along _ _) r r' h

lemma locate_along (hg : g.Injective) (id : OccurrenceId) (text : String) :
    KeepsAlong g (locate id text) (locate (g id) text) := by
  intro r r' h
  have hd' : distance? r'.scopes text = distance? r.scopes text := by rw [h.scopes]
  rcases hd : distance? r.scopes text with _ | depth
  · rw [locate_none hd, locate_none (hd'.trans hd)]
    exact .ok h
  · rw [locate_some hd, locate_some (hd'.trans hd)]
    exact .ok ⟨h.scopes, h.warnings, h.locals.insert hg id depth⟩

lemma checkReadable_along (name : Ident) : KeepsAlong g (checkReadable name) (checkReadable name) := by
  intro r r' h
  rcases r with ⟨_ | ⟨scope, outer⟩, locals, warnings⟩ <;> rcases r' with ⟨scopes', locals', warnings'⟩ <;>
    obtain rfl : scopes' = _ := h.scopes
  · exact .ok h
  · show EndsAlong g ((if scope.get? name.text = some .declared then _ else pure () : Resolving Unit) _)
      ((if scope.get? name.text = some .declared then _ else pure () : Resolving Unit) _)
    split
    · exact .error h
    · exact .ok h

/-- Resolving enters distances under the numbers of the tree, and it does nothing else with them. -/
lemma along_tracks (hg : g.Injective) : Tracks id g (KeepsAlong g) where
  pure := .pure
  bind := .bind
  inScope h := (KeepsAlong.scopes ([] :: ·)).bind (h.bind (.scopes List.tail))
  declare := declare_along
  define text := bind_along text .defined
  locate := locate_along hg
  checkReadable := checkReadable_along
  warnIf c w line := warnIf_along c (w line)
  throw _ _ _ h := .error h

/-! ### Programs -/

lemma topLevel_along (hg : g.Injective) : ∀ (program : Program OccurrenceId) {r r' : Resolver}, Along g r r' →
    (r'.topLevel (Stmt.relabelList id g program)).1 = (r.topLevel program).1 ∧
      Along g (r.topLevel program).2 (r'.topLevel (Stmt.relabelList id g program)).2
  | [], _, _, h => ⟨rfl, h⟩
  | s :: ss, r, r', h => by
    rw [Stmt.relabelList, Resolver.topLevel, Resolver.topLevel]
    have hs := (along_tracks hg).stmt .topLevel s r r' h
    revert hs
    generalize stmt .topLevel s r = out
    generalize stmt .topLevel (s.relabel id g) r' = out'
    rintro (hq | @⟨e, q, q', hq⟩)
    · exact topLevel_along hg ss hq
    · -- The scopes that were open at the error are gone on both sides before the next statement.
      have hnext : Along g { q with scopes := [] } { q' with scopes := [] } := ⟨rfl, hq.warnings, hq.locals⟩
      obtain ⟨herrors, hlast⟩ := topLevel_along hg ss hnext
      exact ⟨congrArg (e :: ·) herrors, hlast⟩

/-- The same rejection, or the same warnings and the same entries under other numbers. -/
inductive AnswersAlong (g : OccurrenceId → OccurrenceId) :
    Except Rejection Resolution → Except Rejection Resolution → Prop
  | accepted {L L' : Locals} {warnings : List ScopeWarning} : Renumbers g L L' →
    AnswersAlong g (.ok ⟨L, warnings⟩) (.ok ⟨L', warnings⟩)
  | rejected {rejection : Rejection} : AnswersAlong g (.error rejection) (.error rejection)

/-- **A program with other numbers is resolved as it is otherwise**, with the distances under the other numbers. -/
theorem resolve_along (hg : g.Injective) (program : Program OccurrenceId) :
    AnswersAlong g (Resolver.empty.resolve program).1
      (Resolver.empty.resolve (Stmt.relabelList id g program)).1 := by
  have hempty : Along g .empty .empty := ⟨rfl, rfl, .empty⟩
  obtain ⟨herrors, hlast⟩ := topLevel_along hg program hempty
  unfold Resolver.resolve
  simp only [herrors, hlast.warnings]
  split
  · exact .accepted hlast.locals
  · exact .rejected

end Resolving

end ScriptLang

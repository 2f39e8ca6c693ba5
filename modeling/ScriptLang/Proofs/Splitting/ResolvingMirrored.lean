import ScriptLang.Proofs.Addressing.TopLevel
import ScriptLang.Proofs.Tree.ResolvingRelabelled

/-!
# Resolving on other lines, behind other programs

Resolving looks at scopes, and neither at lines nor at what has been entered before.  So a program that is
resolved behind another one, and on other lines, gets the same entries on top of those of the other.

* `Over` — the same scopes, and a table on top of another one;
* `Mirrors` — what one computation does without a failure, the other one does over any table;
* `mirrors_tracks` — what single steps and computations put together do;
* `resolve_append` — the theorem for whole programs.
-/

namespace ScriptLang.Resolving

variable {base : Locals} {r r' q : Resolver} {x x' y y' : Resolving Unit} {f : Nat → Nat}

/-- The second resolver has the scopes of the first, and its table is that of the first on top of another
one. -/
structure Over (base : Locals) (r r' : Resolver) : Prop where
  scopes : r'.scopes = r.scopes
  locals : ∀ k : OccurrenceId, r'.locals[k]? = r.locals[k]?.or base[k]?

/-- If the first computation succeeds, the second one does so over any table, with the same effect. -/
def Mirrors (x x' : Resolving Unit) : Prop :=
  ∀ base r r' q, Over base r r' → x r = .ok () q → ∃ q', x' r' = .ok () q' ∧ Over base q q'

lemma Mirrors.pure : Mirrors (pure ()) (pure ()) := by
  intro base r r' q h hx
  cases hx
  exact ⟨r', rfl, h⟩

lemma Mirrors.bind (h : Mirrors x x') (h' : Mirrors y y') : Mirrors (do x; y) (do x'; y') := by
  intro base r r' q ho hx
  obtain ⟨p, hp, hq⟩ := bind_ok hx
  obtain ⟨p', hp', ho'⟩ := h base r r' p ho hp
  obtain ⟨q', hq', ho''⟩ := h' base p p' q ho' hq
  exact ⟨q', (Traced.bind_ok hp').trans hq', ho''⟩

/-- A change of the scopes that depends on the scopes alone. -/
lemma Mirrors.scopes (g : List Scope → List Scope) :
    Mirrors (modify fun r => { r with scopes := g r.scopes }) (modify fun r => { r with scopes := g r.scopes }) := by
  intro base r r' q h hx
  cases hx
  exact ⟨_, rfl, congrArg g h.scopes, h.locals⟩

/-! ### Single steps -/

lemma bind_mirrors (text : String) (b : Binding) :
    Mirrors (Resolving.bind text b) (Resolving.bind text b) := by
  intro base r r' q h hx
  rcases r with ⟨_ | ⟨scope, outer⟩, locals, warnings⟩ <;> rcases r' with ⟨scopes', locals', warnings'⟩ <;>
    obtain rfl : scopes' = _ := h.scopes <;> cases hx
  · exact ⟨_, rfl, rfl, h.locals⟩
  · exact ⟨_, rfl, rfl, h.locals⟩

lemma define_mirrors (text : String) : Mirrors (define text) (define text) := bind_mirrors text .defined

lemma warnIf_mirrors {c c' : Bool} {w w' : ScopeWarning} : Mirrors (warnIf c w) (warnIf c' w') := by
  intro base r r' q h hx
  have hq : q.scopes = r.scopes ∧ q.locals = r.locals := warnIf_rescopes hx
  have hover : Over base q r' := ⟨h.scopes.trans hq.1.symm, by rw [hq.2]; exact h.locals⟩
  cases c'
  · exact ⟨r', rfl, hover⟩
  · exact ⟨_, rfl, hover.scopes, hover.locals⟩

lemma declare_mirrors (name : Ident) : Mirrors (declare name) (declare (name.relabel f)) := by
  intro base r r' q h hx
  obtain ⟨again, heq⟩ := declare_eq name r
  obtain ⟨again', heq'⟩ := declare_eq (name.relabel f) r'
  obtain ⟨q', hq', ho⟩ := (bind_mirrors name.text .declared).bind warnIf_mirrors base r r' q h
    (heq.symm.trans hx)
  exact ⟨q', heq'.trans hq', ho⟩

lemma locate_mirrors (id : OccurrenceId) (text : String) : Mirrors (locate id text) (locate id text) := by
  intro base r r' q h hx
  have hd' : distance? r'.scopes text = distance? r.scopes text := by rw [h.scopes]
  rcases hd : distance? r.scopes text with _ | depth
  · rw [locate_none hd] at hx
    cases hx
    exact ⟨r', locate_none (hd'.trans hd), h⟩
  · rw [locate_some hd] at hx
    cases hx
    refine ⟨_, locate_some (hd'.trans hd), h.scopes, fun k => ?_⟩
    show (r'.locals.insert id depth)[k]? = (r.locals.insert id depth)[k]?.or base[k]?
    rw [Std.TreeMap.getElem?_insert, Std.TreeMap.getElem?_insert]
    split
    · rfl
    · exact h.locals k

lemma checkReadable_mirrors (name : Ident) : Mirrors (checkReadable name) (checkReadable (name.relabel f)) := by
  intro base r r' q h hx
  obtain ⟨rfl, hnot⟩ := checkReadable_ok hx
  refine ⟨r', ?_, h⟩
  rcases r' with ⟨_ | ⟨scope, outer⟩, locals, warnings⟩
  · rfl
  · have hs := hnot scope (by rw [← h.scopes]; rfl)
    show (if scope.get? name.text = some .declared then _ else pure () : Resolving Unit) _ = _
    rw [if_neg hs]
    rfl

lemma Mirrors.inScope (h : Mirrors x x') : Mirrors (inScope x) (inScope x') :=
  (Mirrors.scopes ([] :: ·)).bind (h.bind (Mirrors.scopes List.tail))

/-- Resolving looks neither at lines nor at what has been entered before. -/
lemma mirrors_tracks (f : Nat → Nat) : Tracks f id Mirrors where
  pure := .pure
  bind := .bind
  inScope := .inScope
  declare := declare_mirrors
  define := define_mirrors
  locate := locate_mirrors
  checkReadable := checkReadable_mirrors
  warnIf _ _ _ := warnIf_mirrors
  throw := by
    intro line base r r' q _ hx
    cases hx

/-! ### Programs -/

/-- **A program behind another one has its own entries**, on top of those of the other, when it is resolved
on other lines. -/
theorem resolve_append {program program' : Program OccurrenceId} {res res' : Resolution}
    (h : (Resolver.empty.resolve program).1 = .ok res) (h' : (Resolver.empty.resolve program').1 = .ok res')
    (f : Nat → Nat) :
    ∃ res'', (Resolver.empty.resolve (program ++ Stmt.relabelList f id program')).1 = .ok res'' ∧
      ∀ k : OccurrenceId, res''.locals[k]? = res'.locals[k]?.or res.locals[k]? := by
  obtain ⟨r, htop, rfl⟩ := resolve_ok_iff.1 h
  obtain ⟨r', htop', rfl⟩ := resolve_ok_iff.1 h'
  have hr : r.scopes = [] := by
    have hs : (Resolver.empty.topLevel program).2.scopes = [] := topLevel_scopes program rfl
    rwa [htop] at hs
  have hover : Over r.locals .empty r := ⟨hr, fun k => by
    rw [show Resolver.empty.locals[k]? = none from Std.TreeMap.getElem?_emptyc, Option.none_or]⟩
  have hrun' : stmts .topLevel program' .empty = .ok () r' := by
    rw [← stmtsT_run]
    exact (topLevel_ok htop').1
  obtain ⟨q, hq, ho⟩ := (mirrors_tracks f).stmts .topLevel program' r.locals .empty r r' hover hrun'
  exact ⟨_, resolve_ok_iff.2 ⟨q, (topLevel_append htop).trans (topLevel_of_stmts hq), rfl⟩, ho.locals⟩

end ScriptLang.Resolving

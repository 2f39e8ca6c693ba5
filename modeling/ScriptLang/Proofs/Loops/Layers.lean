import ScriptLang.Proofs.Loops.SourceRuns
import ScriptLang.Tree.Occurrences

/-!
# Layers around a place

Around a place stand the frames or scopes of the tree; some of them stand for blocks around a body and an
increment, which have none in the source.  A use of a name means the same in both if its distance in the source
counts the others only.

* `Layers` — the frames around a place, each marked if it has no counterpart; `Layers.Own`, `Layers.passed`;
* `Distances` — the distances in the tree and in the source; `Distances.Agree`, when both mean the same frame;
* `Stmt.FitsIn` — code all of whose uses of names mean the same, and which declares names in frames of its own;
* `Stmt.Within`, `Stmt.Within.fits` — the statements inside of a statement, and that they fit with it.
-/

namespace ScriptLang

/-! ### Layers -/

/-- The frames or scopes around a place, from the inside out: whether each stands for a block around a body and
an increment. -/
abbrev Layers := List Bool

namespace Layers

/-- The innermost frame or scope has a counterpart. -/
def Own (l : Layers) : Prop := l.head? ≠ some true

/-- How many frames with a counterpart stand inside of the one at a distance. -/
def passed (l : Layers) (d : Nat) : Nat := (l.take d).count false

variable {l : Layers} {d : Nat}

lemma own_nil : Own [] := nofun

lemma own_false : Own (false :: l) := nofun

lemma not_own_true : ¬ Own (true :: l) := fun h => h rfl

lemma passed_own : passed (false :: l) (d + 1) = l.passed d + 1 := by
  rw [passed, List.take_succ_cons, List.count_cons_self]
  rfl

lemma passed_round : passed (true :: l) (d + 1) = l.passed d := by
  rw [passed, List.take_succ_cons, List.count_cons_of_ne (by decide)]
  rfl

end Layers

/-! ### Distances -/

/-- The distances of uses of names, in the tree and in the source, and the first number that no use has yet. -/
structure Distances where
  tree : Locals
  source : Locals
  next : OccurrenceId

namespace Distances

/-- **Both distances of a use mean the same**: no frame at all, or a frame with a counterpart, to which as many
steps lead in the source as there are such frames on the way. -/
structure Agree (T : Distances) (l : Layers) (k : OccurrenceId) : Prop where
  below : k < T.next
  unknown : T.tree[k]? = none → T.source[k]? = none
  known : ∀ d, T.tree[k]? = some d → l[d]? = some false ∧ T.source[k]? = some (l.passed d)

/-- All uses agree. -/
def AgreeAll (T : Distances) (l : Layers) (os : List (Occurrence OccurrenceId)) : Prop :=
  ∀ o ∈ os, T.Agree l o.id

/-- More uses have distances; those of the first ones have stayed. -/
structure Extends (T T' : Distances) : Prop where
  next : T.next ≤ T'.next
  tree : ∀ k < T.next, T'.tree[k]? = T.tree[k]?
  source : ∀ k < T.next, T'.source[k]? = T.source[k]?

variable {T T' : Distances} {l : Layers} {k : OccurrenceId} {os os' : List (Occurrence OccurrenceId)}

lemma Agree.extends (h : T.Agree l k) (hT : T.Extends T') : T'.Agree l k := by
  refine ⟨Nat.lt_of_lt_of_le h.below hT.next, fun hk => ?_, fun d hk => ?_⟩
  · rw [hT.tree k h.below] at hk
    rw [hT.source k h.below]
    exact h.unknown hk
  · rw [hT.tree k h.below] at hk
    rw [hT.source k h.below]
    exact h.known d hk

lemma AgreeAll.extends (h : T.AgreeAll l os) (hT : T.Extends T') : T'.AgreeAll l os :=
  fun o ho => (h o ho).extends hT

lemma agreeAll_append : T.AgreeAll l (os ++ os') ↔ T.AgreeAll l os ∧ T.AgreeAll l os' := List.forall_mem_append

lemma agreeAll_singleton {o : Occurrence OccurrenceId} : T.AgreeAll l [o] ↔ T.Agree l o.id := List.forall_mem_singleton

end Distances

/-! ### Code -/

/-- All uses of names in an expression mean the same. -/
def Expr.FitsIn (T : Distances) (l : Layers) (e : Expr OccurrenceId) : Prop := T.AgreeAll l e.occurrences

/-- All uses of names in some expressions mean the same. -/
def Expr.FitListIn (T : Distances) (l : Layers) (es : List (Expr OccurrenceId)) : Prop :=
  T.AgreeAll l (Expr.occurrencesList es)

/-- All uses of names in an expression that may be missing mean the same. -/
def Expr.FitOptionIn (T : Distances) (l : Layers) (e : Option (Expr OccurrenceId)) : Prop :=
  T.AgreeAll l (Expr.occurrencesOption e)

mutual

/-- **A statement that fits a place**: all its uses of names mean the same in the tree and in the source, and it
declares names only in frames that both have. -/
def Stmt.FitsIn (T : Distances) : Layers → Stmt OccurrenceId → Prop
  | l, .expr e | l, .print e => e.FitsIn T l
  | l, .letVar _ value => l.Own ∧ Expr.FitOptionIn T l value
  | l, .constVar _ value => l.Own ∧ value.FitsIn T l
  | l, .block body => Stmt.FitListIn T (Stmt.isRound body :: l) body
  | l, .ifThen c yes => c.FitsIn T l ∧ yes.FitsIn T l
  | l, .ifElse c yes no => c.FitsIn T l ∧ yes.FitsIn T l ∧ no.FitsIn T l
  | l, .while c body => c.FitsIn T l ∧ body.FitsIn T l
  | l, .function decl => l.Own ∧ FunctionDecl.FitsIn T l decl
  | l, .return _ value => Expr.FitOptionIn T l value
  | l, .classDecl _ parent methods statics => l.Own ∧ T.AgreeAll l parent.toList ∧
      FunctionDecl.FitListIn T (false :: l) methods ∧ FunctionDecl.FitListIn T l statics

/-- Several statements that fit a place. -/
def Stmt.FitListIn (T : Distances) : Layers → List (Stmt OccurrenceId) → Prop
  | _, [] => True
  | l, s :: ss => s.FitsIn T l ∧ Stmt.FitListIn T l ss

/-- A function that fits the place where it stands. -/
def FunctionDecl.FitsIn (T : Distances) : Layers → FunctionDecl (Stmt OccurrenceId) → Prop
  | l, ⟨_, _, body⟩ => Stmt.FitListIn T (false :: l) body

/-- Several functions that fit a place. -/
def FunctionDecl.FitListIn (T : Distances) : Layers → List (FunctionDecl (Stmt OccurrenceId)) → Prop
  | _, [] => True
  | l, d :: ds => FunctionDecl.FitsIn T l d ∧ FunctionDecl.FitListIn T l ds

end

section More

variable {T T' : Distances} {s t : Stmt OccurrenceId} {ss : List (Stmt OccurrenceId)}
  {d : FunctionDecl (Stmt OccurrenceId)} {ds : List (FunctionDecl (Stmt OccurrenceId))}

mutual

/-- Code stays fit when more uses have distances. -/
theorem Stmt.FitsIn.extends (hT : T.Extends T') : ∀ {l : Layers} (s : Stmt OccurrenceId), s.FitsIn T l → s.FitsIn T' l
  | _, .expr _, h | _, .print _, h | _, .return _ _, h => Distances.AgreeAll.extends h hT
  | _, .letVar _ _, h | _, .constVar _ _, h => ⟨h.1, Distances.AgreeAll.extends h.2 hT⟩
  | _, .block body, h => Stmt.FitListIn.extends hT body h
  | _, .ifThen _ yes, h => ⟨Distances.AgreeAll.extends h.1 hT, Stmt.FitsIn.extends hT yes h.2⟩
  | _, .ifElse _ yes no, h =>
    ⟨Distances.AgreeAll.extends h.1 hT, Stmt.FitsIn.extends hT yes h.2.1, Stmt.FitsIn.extends hT no h.2.2⟩
  | _, .while _ body, h => ⟨Distances.AgreeAll.extends h.1 hT, Stmt.FitsIn.extends hT body h.2⟩
  | _, .function decl, h => ⟨h.1, FunctionDecl.FitsIn.extends hT decl h.2⟩
  | _, .classDecl _ _ methods statics, h => ⟨h.1, h.2.1.extends hT, FunctionDecl.FitListIn.extends hT methods h.2.2.1,
      FunctionDecl.FitListIn.extends hT statics h.2.2.2⟩

theorem Stmt.FitListIn.extends (hT : T.Extends T') : ∀ {l : Layers} (ss : List (Stmt OccurrenceId)),
    Stmt.FitListIn T l ss → Stmt.FitListIn T' l ss
  | _, [], _ => trivial
  | _, s :: ss, h => ⟨Stmt.FitsIn.extends hT s h.1, Stmt.FitListIn.extends hT ss h.2⟩

theorem FunctionDecl.FitsIn.extends (hT : T.Extends T') : ∀ {l : Layers} (d : FunctionDecl (Stmt OccurrenceId)),
    FunctionDecl.FitsIn T l d → FunctionDecl.FitsIn T' l d
  | _, ⟨_, _, body⟩, h => Stmt.FitListIn.extends hT body h

theorem FunctionDecl.FitListIn.extends (hT : T.Extends T') : ∀ {l : Layers}
    (ds : List (FunctionDecl (Stmt OccurrenceId))), FunctionDecl.FitListIn T l ds → FunctionDecl.FitListIn T' l ds
  | _, [], _ => trivial
  | _, d :: ds, h => ⟨FunctionDecl.FitsIn.extends hT d h.1, FunctionDecl.FitListIn.extends hT ds h.2⟩

end

lemma Expr.FitListIn.mem {l : Layers} {es : List (Expr OccurrenceId)} {e : Expr OccurrenceId}
    (h : Expr.FitListIn T l es) (he : e ∈ es) : e.FitsIn T l := by
  induction es with
  | nil => cases he
  | cons g es ih =>
    obtain ⟨hg, hes⟩ := Distances.agreeAll_append.1 h
    rcases List.mem_cons.1 he with rfl | he
    · exact hg
    · exact ih hes he

lemma Stmt.FitListIn.mem {l : Layers} (h : Stmt.FitListIn T l ss) (hs : s ∈ ss) : s.FitsIn T l := by
  induction ss with
  | nil => cases hs
  | cons t ss ih =>
    rcases List.mem_cons.1 hs with rfl | hs
    · exact h.1
    · exact ih h.2 hs

lemma FunctionDecl.FitListIn.mem {l : Layers} (h : FunctionDecl.FitListIn T l ds) (hd : d ∈ ds) :
    FunctionDecl.FitsIn T l d := by
  induction ds with
  | nil => cases hd
  | cons e ds ih =>
    rcases List.mem_cons.1 hd with rfl | hd
    · exact h.1
    · exact ih h.2 hd

lemma FunctionDecl.FitsIn.body {l : Layers} (h : FunctionDecl.FitsIn T l d) :
    Stmt.FitListIn T (false :: l) d.body := by
  obtain ⟨name, params, body⟩ := d
  exact h

mutual

/-- Every use of a name in code that fits means the same at its place. -/
theorem Stmt.FitsIn.agree : ∀ {l : Layers} (s : Stmt OccurrenceId), s.FitsIn T l → ∀ o ∈ s.occurrences,
    ∃ l', T.Agree l' o.id
  | l, .expr _, h, o, ho | l, .print _, h, o, ho | l, .return _ _, h, o, ho => ⟨l, h o ho⟩
  | l, .letVar _ _, h, o, ho | l, .constVar _ _, h, o, ho => ⟨l, h.2 o ho⟩
  | _, .block body, h, o, ho => Stmt.FitListIn.agree body h o ho
  | l, .ifThen _ yes, h, o, ho => by
    rcases List.mem_append.1 ho with ho | ho
    · exact ⟨l, h.1 o ho⟩
    · exact Stmt.FitsIn.agree yes h.2 o ho
  | l, .ifElse _ yes no, h, o, ho => by
    rcases List.mem_append.1 ho with ho | ho
    · rcases List.mem_append.1 ho with ho | ho
      · exact ⟨l, h.1 o ho⟩
      · exact Stmt.FitsIn.agree yes h.2.1 o ho
    · exact Stmt.FitsIn.agree no h.2.2 o ho
  | l, .while _ body, h, o, ho => by
    rcases List.mem_append.1 ho with ho | ho
    · exact ⟨l, h.1 o ho⟩
    · exact Stmt.FitsIn.agree body h.2 o ho
  | _, .function decl, h, o, ho => FunctionDecl.FitsIn.agree decl h.2 o ho
  | l, .classDecl _ _ methods statics, h, o, ho => by
    rcases List.mem_append.1 ho with ho | ho
    · rcases List.mem_append.1 ho with ho | ho
      · exact ⟨l, h.2.1 o ho⟩
      · exact FunctionDecl.FitListIn.agree methods h.2.2.1 o ho
    · exact FunctionDecl.FitListIn.agree statics h.2.2.2 o ho

theorem Stmt.FitListIn.agree : ∀ {l : Layers} (ss : List (Stmt OccurrenceId)), Stmt.FitListIn T l ss →
    ∀ o ∈ Stmt.occurrencesList ss, ∃ l', T.Agree l' o.id
  | _, [], _, _, ho => absurd ho List.not_mem_nil
  | _, s :: ss, h, o, ho => by
    rcases List.mem_append.1 ho with ho | ho
    · exact Stmt.FitsIn.agree s h.1 o ho
    · exact Stmt.FitListIn.agree ss h.2 o ho

theorem FunctionDecl.FitsIn.agree : ∀ {l : Layers} (d : FunctionDecl (Stmt OccurrenceId)),
    FunctionDecl.FitsIn T l d → ∀ o ∈ FunctionDecl.occurrences d, ∃ l', T.Agree l' o.id
  | _, ⟨_, _, body⟩, h, o, ho => Stmt.FitListIn.agree body h o ho

theorem FunctionDecl.FitListIn.agree : ∀ {l : Layers} (ds : List (FunctionDecl (Stmt OccurrenceId))),
    FunctionDecl.FitListIn T l ds → ∀ o ∈ FunctionDecl.occurrencesList ds, ∃ l', T.Agree l' o.id
  | _, [], _, _, ho => absurd ho List.not_mem_nil
  | _, d :: ds, h, o, ho => by
    rcases List.mem_append.1 ho with ho | ho
    · exact FunctionDecl.FitsIn.agree d h.1 o ho
    · exact FunctionDecl.FitListIn.agree ds h.2 o ho

end

/-! ### Statements inside of others -/

/-- A statement stands somewhere inside of another one; the layers are those around each. -/
inductive Stmt.Within : Layers → Stmt OccurrenceId → Layers → Stmt OccurrenceId → Prop
  | here {l s} : Stmt.Within l s l s
  | block {l l' s t body} : s ∈ body → Stmt.Within (Stmt.isRound body :: l) s l' t → Stmt.Within l (.block body) l' t
  | ifThen {l l' c s t} : Stmt.Within l s l' t → Stmt.Within l (.ifThen c s) l' t
  | yes {l l' c s no t} : Stmt.Within l s l' t → Stmt.Within l (.ifElse c s no) l' t
  | no {l l' c yes s t} : Stmt.Within l s l' t → Stmt.Within l (.ifElse c yes s) l' t
  | while {l l' c s t} : Stmt.Within l s l' t → Stmt.Within l (.while c s) l' t
  | function {l l' decl s t} : s ∈ decl.body → Stmt.Within (false :: l) s l' t → Stmt.Within l (.function decl) l' t
  | method {l l' name parent methods statics decl s t} : decl ∈ methods → s ∈ decl.body →
      Stmt.Within (false :: false :: l) s l' t → Stmt.Within l (.classDecl name parent methods statics) l' t
  | static {l l' name parent methods statics decl s t} : decl ∈ statics → s ∈ decl.body →
      Stmt.Within (false :: l) s l' t → Stmt.Within l (.classDecl name parent methods statics) l' t

/-- What stands inside of a statement that fits its place fits as well. -/
lemma Stmt.Within.fits {l l' : Layers} (h : Stmt.Within l s l' t) (hs : s.FitsIn T l) : t.FitsIn T l' := by
  induction h with
  | here => exact hs
  | block hmem _ ih => exact ih (Stmt.FitListIn.mem hs hmem)
  | ifThen _ ih => exact ih hs.2
  | yes _ ih => exact ih hs.2.1
  | no _ ih => exact ih hs.2.2
  | «while» _ ih => exact ih hs.2
  | function hmem _ ih => exact ih (hs.2.body.mem hmem)
  | method hd hmem _ ih => exact ih ((hs.2.2.1.mem hd).body.mem hmem)
  | static hd hmem _ ih => exact ih ((hs.2.2.2.mem hd).body.mem hmem)

end More

end ScriptLang

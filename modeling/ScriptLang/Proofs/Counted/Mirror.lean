import ScriptLang.Counted.Basic
import ScriptLang.Proofs.Tree.Relabelling

/-!
# Rules with a counter and rules without

A rule with a counter does what the same rule does without one: it fails with the same diagnostic and reports
the same ones, and its tree is the same but for the numbers.  And the numbers in its tree are new and all
different.

* `Fresh` — uses of names with different numbers between two values of the counter;
* `Mirrors` — what holds of a rule with a counter and the rule without, closed under the steps of a rule;
* `Bears` — what holds of the trees that both read.
-/

namespace ScriptLang

/-! ### New numbers -/

/-- The uses have different numbers, all from `n` on and in front of `m`. -/
structure Fresh (n m : OccurrenceId) (os : List (Occurrence OccurrenceId)) : Prop where
  nodup : (ids os).Nodup
  within : ∀ i ∈ ids os, n ≤ i ∧ i < m

namespace Fresh

variable {n m k : OccurrenceId} {os os' : List (Occurrence OccurrenceId)}

lemma nil : Fresh n m [] := ⟨List.nodup_nil, nofun⟩

lemma single {name : Ident} : Fresh n (n + 1) [⟨name, n⟩] := by
  refine ⟨by simp, fun i hi => ?_⟩
  obtain rfl : i = n := List.mem_singleton.1 hi
  exact ⟨Nat.le_refl i, Nat.lt_succ_self i⟩

lemma mono (h : Fresh n m os) (hn : k ≤ n) {l : OccurrenceId} (hm : m ≤ l) : Fresh k l os :=
  ⟨h.nodup, fun i hi => ⟨Nat.le_trans hn (h.within i hi).1, Nat.lt_of_lt_of_le (h.within i hi).2 hm⟩⟩

lemma perm (h : Fresh n m os) (hp : os'.Perm os) : Fresh n m os' :=
  have hids : (ids os').Perm (ids os) := hp.map _
  ⟨hids.nodup_iff.2 h.nodup, fun i hi => h.within i (hids.mem_iff.1 hi)⟩

/-- Numbers that were taken one after the other. -/
lemma append (h : Fresh n m os) (hnm : n ≤ m) (hmk : m ≤ k) (h' : Fresh m k os') : Fresh n k (os ++ os') := by
  refine ⟨?_, fun i hi => ?_⟩
  · rw [ids_append]
    refine List.nodup_append.2 ⟨h.nodup, h'.nodup, fun i hi j hj => ?_⟩
    exact Nat.ne_of_lt (Nat.lt_of_lt_of_le (h.within i hi).2 (h'.within j hj).1)
  · rw [ids_append] at hi
    rcases List.mem_append.1 hi with hi | hi
    · exact (h.mono (Nat.le_refl n) hmk).within i hi
    · exact (h'.mono hnm (Nat.le_refl k)).within i hi

lemma of_number {α β : Type} {forget : β → α} {occurrences : β → List (Occurrence OccurrenceId)} {a : α}
    {r : β × OccurrenceId} (h : NumberedAs forget occurrences a n r) : Fresh n r.2 (occurrences r.1) := by
  refine ⟨?_, fun i hi => ?_⟩
  · rw [h.ids]
    exact List.nodup_range'
  · rw [h.ids, List.mem_range'_1] at hi
    rw [h.next]
    exact hi

end Fresh

/-! ### Outcomes -/

/-- Two results that are related values or the same failure. -/
inductive EndsLike {ε α β : Type} (R : α → β → Prop) : Except ε α → Except ε β → Prop
  | ok {a : α} {b : β} : R a b → EndsLike R (.ok a) (.ok b)
  | error (e : ε) : EndsLike R (.error e) (.error e)

/-- **A rule with a counter does what a rule without one does**, if the next free number is `n`.  The values and
the next free number then are related by `R`. -/
structure Mirrors {α β : Type} (R : OccurrenceId → α → β → Prop) (n : OccurrenceId) (x : Counted α)
    (y : Outcome β) : Prop where
  le : n ≤ (x n).2
  reported : (x n).1.reported = y.reported
  result : EndsLike (R (x n).2) (x n).1.result y.result

namespace Mirrors

variable {α β γ δ : Type} {R : OccurrenceId → α → β → Prop} {S : OccurrenceId → γ → δ → Prop}
variable {n : OccurrenceId} {x : Counted α} {y : Outcome β}

lemma pure {a : α} {b : β} (h : R n a b) : Mirrors R n (Pure.pure a) (Pure.pure b) :=
  ⟨Nat.le_refl n, rfl, .ok h⟩

lemma fail (path : Path) (e : GrammarError) (ts : List Token) :
    Mirrors R n (liftM (path.fail e ts : Outcome α)) (path.fail e ts) := ⟨Nat.le_refl n, rfl, .error _⟩

lemma bind {f : α → Counted γ} {g : β → Outcome δ} (h : Mirrors R n x y)
    (hf : ∀ a b m, n ≤ m → R m a b → Mirrors S m (f a) (g b)) : Mirrors S n (x >>= f) (y >>= g) := by
  obtain ⟨hle, hreported, hresult⟩ := h
  obtain ⟨result, reported⟩ := y
  obtain rfl : _ = reported := hreported
  generalize hr : (x n).1.result = r at hresult
  cases hresult with
  | error d =>
    refine ⟨?_, ?_, ?_⟩ <;> simp only [Bind.bind, hr]
    · exact hle
    · exact .error d
  | ok hab =>
    obtain ⟨hle', hreported', hresult'⟩ := hf _ _ _ hle hab
    refine ⟨?_, ?_, ?_⟩ <;> simp only [Bind.bind, hr]
    · exact Nat.le_trans hle hle'
    · exact congrArg ((x n).1.reported ++ ·) hreported'
    · exact hresult'

lemma lift_bind {z : Outcome α} {f : α → Counted γ} {g : α → Outcome δ} (hf : ∀ a, Mirrors S n (f a) (g a)) :
    Mirrors S n (liftM z >>= f) (z >>= g) := by
  have hz : Mirrors (fun m a b => a = b ∧ m = n) n (liftM z) z := by
    refine ⟨Nat.le_refl n, rfl, ?_⟩
    show EndsLike _ z.result z.result
    cases z.result with
    | error d => exact .error d
    | ok a => exact .ok ⟨rfl, rfl⟩
  refine hz.bind fun a b m _ hab => ?_
  obtain ⟨rfl, rfl⟩ := hab
  exact hf a

/-- Numbers that are taken between two steps. -/
lemma numbered_bind {z : Numbered α} {f : α → Counted γ} {y : Outcome δ} (hle : n ≤ (z n).2)
    (h : Mirrors S (z n).2 (f (z n).1) y) : Mirrors S n (liftM z >>= f) y :=
  ⟨Nat.le_trans hle h.le, h.reported, h.result⟩

lemma attempt (h : Mirrors R n x y) : Mirrors (fun m => EndsLike (R m)) n x.attempt y.attempt :=
  ⟨h.le, h.reported, .ok h.result⟩

end Mirrors

/-! ### Trees -/

/-- Parts of trees: what they are without their numbers, and their uses of names. -/
class HasUses (α : Type) (β : outParam Type) where
  forget : α → β
  uses : α → List (Occurrence OccurrenceId)

export HasUses (forget uses)

/-- The values that two rules have read are the same but for the numbers, and the numbers are new: from `n` on and
in front of `m`. -/
structure Bears {α β : Type} [HasUses α β] {ts : List Token} (n m : OccurrenceId) (p : Parsed α ts)
    (q : Parsed β ts) : Prop where
  forget : p.map forget = q
  fresh : Fresh n m (uses p.value)

/-- A part is read, and then what follows it, with the same part on both sides. -/
lemma Mirrors.next {α β γ δ : Type} [HasUses α β] {S : OccurrenceId → γ → δ → Prop} {ts : List Token}
    {n m : OccurrenceId} {x : Counted (Parsed α ts)} {y : Outcome (Parsed β ts)} {f : Parsed α ts → Counted γ}
    {g : Parsed β ts → Outcome δ} (h : Mirrors (Bears n) m x y)
    (hf : ∀ p k, m ≤ k → Fresh n k (uses p.value) → Mirrors S k (f p) (g (p.map forget))) :
    Mirrors S m (x >>= f) (y >>= g) := by
  refine h.bind fun p q k hk hpq => ?_
  obtain ⟨rfl, hp⟩ := hpq
  exact hf p k hk hp

/-- Another tree with the same uses of names. -/
lemma Mirrors.wrap {α β γ δ : Type} [HasUses α β] [HasUses γ δ] {ts us : List Token} {n m : OccurrenceId}
    {x : Counted (Parsed α ts)} {y : Outcome (Parsed β ts)} {f : Parsed α ts → Parsed γ us}
    {g : Parsed β ts → Parsed δ us} (h : Mirrors (Bears n) m x y)
    (hforget : ∀ p, (f p).map forget = g (p.map forget)) (huses : ∀ p, uses (f p).value = uses p.value) :
    Mirrors (Bears n) m (do return f (← x)) (do return g (← y)) :=
  h.next fun p _ _ hp => .pure ⟨hforget p, huses p ▸ hp⟩

end ScriptLang

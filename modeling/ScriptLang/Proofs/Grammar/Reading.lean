import Mathlib.Tactic.Lemma
import ScriptLang.Grammar.Outcome
import ScriptLang.Grammar.Expression

/-!
# Clean readings

A rule reads cleanly if it succeeds and reports nothing.  For an outcome this is `Yields`, which looks
through the steps of a rule; `Reads` says the same of the value and the tokens that are left.  Both
single tokens are characterised here, and so is the look-ahead.
-/

namespace ScriptLang

namespace Outcome

variable {α β : Type} {ts us rest : List Token}

/-- The outcome is the given value, and nothing was reported. -/
def Yields (x : Outcome α) (a : α) : Prop := x = ⟨.ok a, []⟩

/-- A rule has read a value and left some tokens, and nothing was reported. -/
def Reads (x : Outcome (Parsed α ts)) (value : α) (rest : List Token) : Prop :=
  ∃ p, x.Yields p ∧ p.value = value ∧ p.rest = rest

/-! ### Steps -/

lemma yields_pure {a b : α} : (pure a : Outcome α).Yields b ↔ a = b := by
  show (⟨.ok a, []⟩ : Outcome α) = ⟨.ok b, []⟩ ↔ a = b
  simp

lemma yields_bind {x : Outcome α} {f : α → Outcome β} {b : β} :
    (x >>= f).Yields b ↔ ∃ a, x.Yields a ∧ (f a).Yields b := by
  obtain ⟨result, reported⟩ := x
  rcases result with d | a
  · show (⟨.error d, reported⟩ : Outcome β) = ⟨.ok b, []⟩ ↔ _
    simp [Yields]
  · show (⟨(f a).result, reported ++ (f a).reported⟩ : Outcome β) = ⟨.ok b, []⟩ ↔ _
    constructor
    · intro h
      obtain ⟨h1, h2⟩ := Outcome.mk.inj h
      obtain ⟨hx, hf⟩ := List.append_eq_nil_iff.1 h2
      refine ⟨a, by rw [hx]; rfl, ?_⟩
      show f a = ⟨.ok b, []⟩
      rw [← h1, ← hf]
    · rintro ⟨a', hx, hf⟩
      obtain ⟨ha, rfl⟩ := Outcome.mk.inj hx
      obtain rfl := Except.ok.inj ha
      unfold Yields at hf
      rw [hf]
      rfl

lemma not_yields_fail {path : Path} {e : GrammarError} {a : α} : ¬ (path.fail e ts).Yields a := by
  intro h
  have := (Outcome.mk.inj h).1
  cases this

lemma not_yields_tell {d : Diagnostic} {u : Unit} : ¬ (Outcome.tell d).Yields u := by
  intro h
  have := (Outcome.mk.inj h).2
  cases this

lemma yields_reportIf {path : Path} {c : Bool} {e : GrammarError} {u : Unit} :
    (path.reportIf c e ts).Yields u ↔ c = false := by
  unfold Path.reportIf
  cases c
  · simp [yields_pure]
  · simp [Path.report, not_yields_tell]

lemma yields_unique {x : Outcome α} {a b : α} (ha : x.Yields a) (hb : x.Yields b) : a = b := by
  unfold Yields at ha hb
  rw [ha] at hb
  exact Except.ok.inj (Outcome.mk.inj hb).1

lemma yields_attempt {x : Outcome α} {r : Except Diagnostic α} :
    x.attempt.Yields r ↔ x = ⟨r, []⟩ := by
  obtain ⟨result, reported⟩ := x
  simp [attempt, Yields]

/-! ### Values and the tokens behind them -/

lemma reads_of_yields {x : Outcome (Parsed α ts)} {p : Parsed α ts} (h : x.Yields p) :
    x.Reads p.value p.rest := ⟨p, h, rfl, rfl⟩

lemma reads_unique {x : Outcome (Parsed α ts)} {a b : α} {as bs : List Token}
    (ha : x.Reads a as) (hb : x.Reads b bs) : a = b ∧ as = bs := by
  obtain ⟨p, hp, rfl, rfl⟩ := ha
  obtain ⟨q, hq, rfl, rfl⟩ := hb
  obtain rfl := yields_unique hp hq
  exact ⟨rfl, rfl⟩

lemma Reads.length_lt {x : Outcome (Parsed α ts)} {a : α} (h : x.Reads a rest) :
    rest.length < ts.length := by
  obtain ⟨p, -, -, rfl⟩ := h
  exact p.proper.length_lt

lemma reads_pure {p : Parsed α ts} {value : α} :
    (pure p : Outcome (Parsed α ts)).Reads value rest ↔ p.value = value ∧ p.rest = rest := by
  constructor
  · rintro ⟨q, hq, rfl, rfl⟩
    obtain rfl := yields_pure.1 hq
    exact ⟨rfl, rfl⟩
  · exact fun h => ⟨p, yields_pure.2 rfl, h⟩

lemma reads_bind {x : Outcome α} {f : α → Outcome (Parsed β ts)} {value : β} :
    (x >>= f).Reads value rest ↔ ∃ a, x.Yields a ∧ (f a).Reads value rest := by
  constructor
  · rintro ⟨q, hq, hv, hr⟩
    obtain ⟨a, ha, hf⟩ := yields_bind.1 hq
    exact ⟨a, ha, q, hf, hv, hr⟩
  · rintro ⟨a, ha, q, hf, hv, hr⟩
    exact ⟨q, yields_bind.2 ⟨a, ha, hf⟩, hv, hr⟩

lemma not_reads_fail {path : Path} {e : GrammarError} {value : α} :
    ¬ (path.fail e us : Outcome (Parsed α ts)).Reads value rest :=
  fun ⟨_, h, _⟩ => not_yields_fail h

/-- A step that reads, and the tokens it leaves, in front of the rest of a rule. -/
lemma Reads.bind {x : Outcome (Parsed α us)} {f : Parsed α us → Outcome (Parsed β ts)} {a : α}
    {value : β} {mid : List Token} (hx : x.Reads a mid)
    (hf : ∀ p : Parsed α us, p.value = a → p.rest = mid → (f p).Reads value rest) :
    (x >>= f).Reads value rest := by
  obtain ⟨p, hp, hv, hr⟩ := hx
  exact reads_bind.2 ⟨p, hp, hf p hv hr⟩

/-- A step that reads, and the rest of a rule, of which only the value and the tokens left by the step
matter. -/
lemma reads_step {x : Outcome (Parsed α us)} {f : Parsed α us → Outcome (Parsed β ts)} {value : β}
    {Q : α → List Token → Prop} (hf : ∀ p, (f p).Reads value rest ↔ Q p.value p.rest) :
    (x >>= f).Reads value rest ↔ ∃ a mid, x.Reads a mid ∧ Q a mid := by
  constructor
  · intro h
    obtain ⟨p, hp, h⟩ := reads_bind.1 h
    exact ⟨p.value, p.rest, reads_of_yields hp, (hf p).1 h⟩
  · rintro ⟨a, mid, ⟨p, hp, rfl, rfl⟩, h⟩
    exact reads_bind.2 ⟨p, hp, (hf p).2 h⟩

lemma reads_ite {c : Prop} [Decidable c] {x y : Outcome (Parsed α ts)} {value : α} :
    (if c then x else y).Reads value rest ↔ c ∧ x.Reads value rest ∨ ¬ c ∧ y.Reads value rest := by
  by_cases h : c <;> simp [h]

lemma reads_reportIf {path : Path} {c : Bool} {e : GrammarError} {f : Unit → Outcome (Parsed α ts)}
    {value : α} :
    (path.reportIf c e us >>= f).Reads value rest ↔ c = false ∧ (f ()).Reads value rest := by
  rw [reads_bind]
  constructor
  · rintro ⟨u, hu, h⟩
    exact ⟨yields_reportIf.1 hu, h⟩
  · rintro ⟨hc, h⟩
    exact ⟨(), yields_reportIf.2 hc, h⟩

end Outcome

/-! ### Single tokens -/

namespace Grammar

open Outcome

variable {ts rest : List Token} {t : Token} {path : Path}

lemma symbol_reads {s : Symbol} {line : Nat} :
    (symbol path s ts).Reads line rest ↔ ∃ t, ts = t :: rest ∧ t.kind = .symbol s ∧ line = t.line := by
  rcases ts with _ | ⟨t, us⟩
  · simp [symbol, not_reads_fail]
  · rw [symbol]
    split
    · next s' hk =>
      split
      · next hs =>
        subst hs
        rw [reads_pure]
        constructor
        · rintro ⟨rfl, rfl⟩
          exact ⟨t, rfl, hk, rfl⟩
        · rintro ⟨t', h, -, rfl⟩
          obtain ⟨rfl, rfl⟩ := List.cons.inj h
          exact ⟨rfl, rfl⟩
      · next hs =>
        refine iff_of_false not_reads_fail ?_
        rintro ⟨t', h, hk', -⟩
        obtain ⟨rfl, -⟩ := List.cons.inj h
        rw [hk] at hk'
        exact hs (Kind.symbol.inj hk')
    · next hk =>
      refine iff_of_false not_reads_fail ?_
      rintro ⟨t', h, hk', -⟩
      obtain ⟨rfl, -⟩ := List.cons.inj h
      exact hk s hk'

lemma identifier_reads {name : Ident} :
    (identifier path ts).Reads name rest ↔
      ∃ t, ts = t :: rest ∧ t.kind = .identifier ∧ name = ⟨t.lexeme, t.line⟩ := by
  rcases ts with _ | ⟨t, us⟩
  · simp [identifier, not_reads_fail]
  · rw [identifier]
    split
    · next hk =>
      rw [reads_pure]
      constructor
      · rintro ⟨rfl, rfl⟩
        exact ⟨t, rfl, hk, rfl⟩
      · rintro ⟨t', h, -, rfl⟩
        obtain ⟨rfl, rfl⟩ := List.cons.inj h
        exact ⟨rfl, rfl⟩
    · next hk =>
      refine iff_of_false not_reads_fail ?_
      rintro ⟨t', h, hk', -⟩
      obtain ⟨rfl, -⟩ := List.cons.inj h
      exact hk hk'

lemma startsWith_iff {s : Symbol} :
    startsWith s ts = true ↔ ∃ t us, ts = t :: us ∧ t.kind = .symbol s := by
  rcases ts with _ | ⟨t, us⟩
  · simp [startsWith]
  · rw [startsWith]
    constructor
    · intro h
      split at h
      · next s' hk =>
        obtain rfl := of_decide_eq_true h
        exact ⟨t, us, rfl, hk⟩
      · cases h
    · rintro ⟨t', us', h, hk⟩
      obtain ⟨rfl, -⟩ := List.cons.inj h
      simp [hk]

lemma startsWith_cons {s : Symbol} {us : List Token} (h : t.kind = .symbol s) :
    startsWith s (t :: us) = true := startsWith_iff.2 ⟨t, us, rfl, h⟩

end Grammar

end ScriptLang

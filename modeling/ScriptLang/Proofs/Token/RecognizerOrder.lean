import ScriptLang.Proofs.Token.Lexeme

/-!
# The order of the recognizers

Of all recognizers that find a token the one that leaves the shortest rest decides.  No two leave the same rest, so it
does not matter in which order they are tried.

* `Match.rest` — what a match leaves of the text;
* `kind_of_rest` — matches that leave the same rest are of one kind;
* `all_apart` — no two recognizers leave the same rest;
* `longest_in_any_order` — the theorem.
-/

namespace ScriptLang

open Recognizer

variable {cs : List Char} {m m' : Match} {r r' : Recognizer} {rs : List Recognizer} {s : Symbol}

/-- What a match leaves of the text at whose start it stands. -/
def Match.rest (m : Match) (cs : List Char) : List Char := cs.drop m.length

/-- A longer match leaves a shorter rest. -/
lemma rest_suffix (h : m'.length ≤ m.length) : m.rest cs <:+ m'.rest cs := List.drop_suffix_drop_left cs h

section Rests

variable (hr : r ∈ all) (hr' : r' ∈ all) (hm : r cs = some m) (hm' : r' cs = some m')

include hr hr' hm hm'

lemma length_of_rest (h : m.rest cs = m'.rest cs) : m.length = m'.length := by
  have hle := Recognizer.length_le hr hm
  have hle' := Recognizer.length_le hr' hm'
  have hlength : cs.length - m.length = cs.length - m'.length := by
    simpa [Match.rest] using congrArg List.length h
  omega

lemma kind_of_length (h : m.length = m'.length) : m.kind = m'.kind :=
  Lexeme.kind_unique (Recognizer.sound hr hm) (h ▸ Recognizer.sound hr' hm')

/-- **Matches that leave the same rest are of one kind**: what they take is the same text. -/
lemma kind_of_rest (h : m.rest cs = m'.rest cs) : m.kind = m'.kind :=
  kind_of_length hr hr' hm hm' (length_of_rest hr hr' hm hm' h)

end Rests

/-! ### What each recognizer finds -/

lemma symbol_kind (h : symbol s cs = some m) : m.kind = .symbol s := by
  obtain ⟨-, rfl⟩ := symbol_eq_some_iff.1 h
  rfl

lemma word_kind (h : word cs = some m) : (∃ w, m.kind = .keyword w) ∨ m.kind = .identifier := by
  obtain ⟨-, rfl⟩ := word_eq_some_iff.1 h
  unfold wordKind
  split
  · next w _ => exact .inl ⟨w, rfl⟩
  · exact .inr rfl

lemma number_kind (h : number cs = some m) : ∃ x, m.kind = .number x := by
  unfold number at h
  split at h
  · cases h
  · split at h <;> cases h <;> exact ⟨_, rfl⟩

/-- No two recognizers find tokens of one kind. -/
lemma all_kinds (cs : List Char) :
    all.Pairwise fun r r' => ∀ m m', r cs = some m → r' cs = some m' → m.kind ≠ m'.kind := by
  have hsymbols : Symbol.all.Nodup := by decide
  refine List.pairwise_append.2 ⟨List.pairwise_map.2 (hsymbols.imp ?_), List.pairwise_pair.2 ?_, ?_⟩
  · intro s s' hne m m' hm hm' hkind
    rw [symbol_kind hm, symbol_kind hm'] at hkind
    exact hne (Kind.symbol.inj hkind)
  · intro m m' hm hm' hkind
    obtain ⟨x, hx⟩ := number_kind hm'
    rw [hx] at hkind
    rcases word_kind hm with ⟨w, hw⟩ | hw <;> rw [hw] at hkind <;> cases hkind
  · intro r hr r' hr' m m' hm hm' hkind
    obtain ⟨s, -, rfl⟩ := List.mem_map.1 hr
    rw [symbol_kind hm] at hkind
    rw [List.mem_cons, List.mem_singleton] at hr'
    rcases hr' with rfl | rfl
    · rcases word_kind hm' with ⟨w, hw⟩ | hw <;> rw [hw] at hkind <;> cases hkind
    · obtain ⟨x, hx⟩ := number_kind hm'
      rw [hx] at hkind
      cases hkind

/-- **No two recognizers leave the same rest.** -/
lemma all_apart (cs : List Char) :
    all.Pairwise fun r r' => ∀ m m', r cs = some m → r' cs = some m' → m.rest cs ≠ m'.rest cs :=
  (all_kinds cs).imp_of_mem fun hr hr' hkinds m m' hm hm' hrest =>
    hkinds m m' hm hm' (kind_of_rest hr hr' hm hm' hrest)

/-! ### The longest match -/

section Finders

-- the recognizers are some of all, and none that finds something here is missing
variable (hsome : ∀ r ∈ rs, r ∈ all) (hnone : ∀ r ∈ all, ∀ m, r cs = some m → r ∈ rs)

include hsome hnone

lemma longest_length (hm : longest rs cs = some m) (hm' : longest all cs = some m') : m.length = m'.length := by
  obtain ⟨r, hr, hfinds⟩ := longest_mem hm
  obtain ⟨r', hr', hfinds'⟩ := longest_mem hm'
  exact Nat.le_antisymm (longest_max hm' r (hsome r hr) m hfinds)
    (longest_max hm r' (hnone r' hr' m' hfinds') m' hfinds')

/-- **The recognizers that find something decide**: the longest match is theirs, in any order and with or without the
others. -/
lemma longest_of_finders : longest rs cs = longest all cs := by
  rcases hm' : longest all cs with _ | m'
  · exact longest_eq_none.2 fun r hr => longest_eq_none.1 hm' r (hsome r hr)
  obtain ⟨r', hr', hfinds'⟩ := longest_mem hm'
  rcases hm : longest rs cs with _ | m
  · rw [longest_eq_none.1 hm r' (hnone r' hr' m' hfinds')] at hfinds'
    cases hfinds'
  obtain ⟨r, hr, hfinds⟩ := longest_mem hm
  have hlength := longest_length hsome hnone hm hm'
  have hkind := kind_of_length (hsome r hr) hr' hfinds hfinds' hlength
  cases m
  cases m'
  cases hlength
  cases hkind
  rfl

end Finders

lemma longest_perm (h : rs.Perm all) (cs : List Char) : longest rs cs = longest all cs :=
  longest_of_finders (fun _ => h.mem_iff.1) fun _ hr _ _ => h.mem_iff.2 hr

/-- **The order of the recognizers does not matter.**  The longest match is one that a recognizer finds, and what it
leaves of the text is the end of what any other one leaves; there is none only if no recognizer finds anything.  No two
recognizers leave the same rest, and in any order the longest match is the same. -/
theorem longest_in_any_order (cs : List Char) :
    (∀ m, longest all cs = some m → (∃ r ∈ all, r cs = some m) ∧
      ∀ r ∈ all, ∀ m', r cs = some m' → m.rest cs <:+ m'.rest cs) ∧
    (longest all cs = none ↔ ∀ r ∈ all, r cs = none) ∧
    (all.Pairwise fun r r' => ∀ m m', r cs = some m → r' cs = some m' → m.rest cs ≠ m'.rest cs) ∧
    ∀ rs : List Recognizer, rs.Perm all → longest rs cs = longest all cs := by
  refine ⟨fun m hm => ⟨longest_mem hm, fun r hr m' hm' => ?_⟩, longest_eq_none, all_apart cs, fun rs h => ?_⟩
  · exact rest_suffix (longest_max hm r hr m' hm')
  · exact longest_perm h cs

/-- Two recognizers find a symbol here, and the longer one counts, also if it is tried first. -/
theorem longest_reversed :
    symbol .bang "!=5".toList = some ⟨.symbol .bang, 1⟩ ∧
      longest all.reverse "!=5".toList = some ⟨.symbol .bangEqual, 2⟩ := by
  obtain ⟨-, -, -, horder⟩ := longest_in_any_order "!=5".toList
  refine ⟨rfl, ?_⟩
  rw [horder _ (List.reverse_perm all)]
  rfl

end ScriptLang

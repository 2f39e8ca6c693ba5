import ScriptLang.Proofs.Grammar.ProgramReading
import ScriptLang.Proofs.Token.LineBreaks
import ScriptLang.Command.Repl
import ScriptLang.Proofs.Token.Dispatch

/-!
# Brackets

The interactive loop counts braces to see whether a text is complete; the reader goes by the grammar.  The two
agree, because the brackets of every sentence are nested.

* `Nested ts` — every bracket has its partner, and pairs do not cross;
* `ClosesOwn ts` — no part in front closes more braces than it opens;
* `AreDeclarations.nested` — the brackets of a row of declarations are nested;
* `parse_nested` — no text is read while a brace is open, so the loop holds back no program.
-/

namespace ScriptLang

open Grammar Command

variable {ts us : List Token} {t opening closing : Token}

/-! ### Nested brackets -/

/-- An opening bracket and the closing one that belongs to it. -/
inductive Pairs : Kind → Kind → Prop
  | parens : Pairs (.symbol .leftParen) (.symbol .rightParen)
  | braces : Pairs (.symbol .leftBrace) (.symbol .rightBrace)

/-- Whether a token is a parenthesis or a brace. -/
def Token.isBracket (t : Token) : Bool :=
  match t.kind with
  | .symbol .leftParen | .symbol .rightParen | .symbol .leftBrace | .symbol .rightBrace => true
  | _ => false

/-- **The brackets are nested**: each stands with its partner around tokens with nested brackets. -/
inductive Nested : List Token → Prop
  | nil : Nested []
  | other {t : Token} {ts : List Token} : t.isBracket = false → Nested ts → Nested (t :: ts)
  | pair {opening closing : Token} {ts us : List Token} : Pairs opening.kind closing.kind → Nested ts → Nested us →
      Nested (opening :: (ts ++ closing :: us))

lemma Nested.append (hts : Nested ts) (hus : Nested us) : Nested (ts ++ us) := by
  induction hts with
  | nil => exact hus
  | other ht _ ih => exact .other ht ih
  | pair hpair hin _ _ ih =>
    rw [List.cons_append, List.append_assoc, List.cons_append]
    exact .pair hpair hin ih

/-- Tokens with nested brackets, between brackets. -/
lemma Nested.enclosed (hpair : Pairs opening.kind closing.kind) (h : Nested ts) :
    Nested (opening :: (ts ++ [closing])) := .pair hpair h .nil

/-- Tokens with nested brackets, in front of a token that is no bracket. -/
lemma Nested.concat (h : Nested ts) (ht : t.isBracket = false) : Nested (ts ++ [t]) :=
  h.append (.other ht .nil)

lemma pairs_parens (ho : opening.kind = .symbol .leftParen) (hc : closing.kind = .symbol .rightParen) :
    Pairs opening.kind closing.kind := ho ▸ hc ▸ .parens

lemma pairs_braces (ho : opening.kind = .symbol .leftBrace) (hc : closing.kind = .symbol .rightBrace) :
    Pairs opening.kind closing.kind := ho ▸ hc ▸ .braces

/-! ### What counting braces sees of them -/

/-- Braces are closed only where they have been opened. -/
def ClosesOwn (ts : List Token) : Prop := ∀ us, us <+: ts → 0 ≤ Scan.netDepth us

lemma netDepth_cons : Scan.netDepth (t :: ts) = Scan.depthOf t + Scan.netDepth ts := rfl

lemma depthOf_other (h : t.isBracket = false) : Scan.depthOf t = 0 := by
  unfold Token.isBracket at h
  unfold Scan.depthOf
  split at h <;> simp_all

/-- The opening bracket counts for nothing or for one, and its partner takes that back. -/
lemma Pairs.depthOf (h : Pairs opening.kind closing.kind) :
    0 ≤ Scan.depthOf opening ∧ Scan.depthOf closing = -Scan.depthOf opening := by
  unfold Scan.depthOf
  generalize opening.kind = o at h
  generalize closing.kind = c at h
  cases h <;> decide

lemma closesOwn_nil : ClosesOwn [] := by
  intro us hus
  obtain rfl := List.prefix_nil.1 hus
  exact Int.le_refl 0

lemma prefix_append_cases {ps : List Token} (h : ps <+: ts ++ us) :
    ps <+: ts ∨ ∃ qs, qs <+: us ∧ ps = ts ++ qs := by
  rcases List.prefix_or_prefix_of_prefix h (List.prefix_append ts us) with hps | ⟨qs, rfl⟩
  · exact .inl hps
  · exact .inr ⟨qs, (List.prefix_append_right_inj ts).1 h, rfl⟩

lemma Nested.netDepth (h : Nested ts) : Scan.netDepth ts = 0 := by
  induction h with
  | nil => rfl
  | other ht _ ih => rw [netDepth_cons, depthOf_other ht, ih, Int.add_zero]
  | pair hpair _ _ ihin ihbehind =>
    rw [netDepth_cons, netDepth_append, netDepth_cons, ihin, ihbehind, hpair.depthOf.2]
    omega

lemma Nested.closesOwn (h : Nested ts) : ClosesOwn ts := by
  induction h with
  | nil => exact closesOwn_nil
  | other ht _ ih =>
    intro ps hps
    rcases List.prefix_cons_iff.1 hps with rfl | ⟨qs, rfl, hqs⟩
    · exact Int.le_refl 0
    · rw [netDepth_cons, depthOf_other ht, Int.zero_add]
      exact ih qs hqs
  | pair hpair hin _ ihin ihbehind =>
    obtain ⟨hopening, hclosing⟩ := hpair.depthOf
    intro ps hps
    rcases List.prefix_cons_iff.1 hps with rfl | ⟨qs, rfl, hqs⟩
    · exact Int.le_refl 0
    rw [netDepth_cons]
    rcases prefix_append_cases hqs with hqs | ⟨rs, hrs, rfl⟩
    · -- The part ends between the brackets.
      have hdepth := ihin qs hqs
      omega
    rw [netDepth_append, hin.netDepth]
    rcases List.prefix_cons_iff.1 hrs with rfl | ⟨ss, rfl, hss⟩
    · simpa [Scan.netDepth] using hopening
    · have hdepth := ihbehind ss hss
      rw [netDepth_cons, hclosing]
      omega

/-! ### The brackets of sentences -/

lemma isBracket_keyword {w : Keyword} (h : t.kind = .keyword w) : t.isBracket = false := by
  simp [Token.isBracket, h]

lemma isBracket_identifier (h : t.kind = .identifier) : t.isBracket = false := by
  simp [Token.isBracket, h]

lemma isBracket_semicolon (h : t.kind = .symbol .semicolon) : t.isBracket = false := by
  simp [Token.isBracket, h]

lemma isBracket_equal (h : t.kind = .symbol .equal) : t.isBracket = false := by
  simp [Token.isBracket, h]

lemma isBracket_comma (h : t.kind = .symbol .comma) : t.isBracket = false := by
  simp [Token.isBracket, h]

lemma isBracket_dot (h : t.kind = .symbol .dot) : t.isBracket = false := by
  simp [Token.isBracket, h]

lemma isBracket_joins {l : Level} {op : Operator} (h : Joins l t.kind op) : t.isBracket = false := by
  unfold Token.isBracket
  generalize t.kind = k at h
  cases h <;> rfl

lemma isBracket_leads {op : UnaryOp} (h : Leads t.kind op) : t.isBracket = false := by
  unfold Token.isBracket
  generalize t.kind = k at h
  cases h <;> rfl

lemma isBracket_atom {e : Expr Unit} (h : Atom t e) : t.isBracket = false := by
  cases h <;> simp [Token.isBracket, *]

lemma Listed.nested {α : Type} {parts : List (List Token × α)} (h : Listed parts ts) :
    (∀ part ∈ parts, Nested part.1) → Nested ts := by
  induction h with
  | nil => exact fun _ => .nil
  | last => exact fun hp => hp _ List.mem_cons_self
  | cons hc _ ih =>
    intro hp
    obtain ⟨hpart, hparts⟩ := List.forall_mem_cons.1 hp
    exact hpart.append (.other (isBracket_comma hc) (ih hparts))

lemma Phrase.nested {s : Stratum} {e : Expr Unit} (h : Phrase s ts e) : Nested ts := by
  induction h with
  | ofOr _ ih | ofOperand _ ih | ofCall _ ih | ofPrimary _ ih => exact ih
  | assign _ hq _ _ iht ihv => exact iht.append (.other (isBracket_equal hq) ihv)
  | joined _ hj _ ihl ihr => exact ihl.append (.other (isBracket_joins hj) ihr)
  | led hl _ ih => exact .other (isBracket_leads hl) ih
  | call _ ho _ hlist _ hc ih ihp => exact ih.append ((hlist.nested ihp).enclosed (pairs_parens ho hc))
  | property _ hd hn _ ih => exact ih.append (.other (isBracket_dot hd) (.other (isBracket_identifier hn) .nil))
  | atom ha => exact .other (isBracket_atom ha) .nil
  | group ho _ hc ih => exact ih.enclosed (pairs_parens ho hc)

namespace Grammar

lemma IsExpression.nested {e : Expr Unit} (h : IsExpression ts e) : Nested ts := (isExpression_iff.1 h).nested

lemma IsCondition.nested {e : Expr Unit} (h : IsCondition ts e) : Nested ts := by
  cases h with
  | mk ho he hc => exact he.nested.enclosed (pairs_parens ho hc)

lemma IsOptional.nested {o : Option (Expr Unit)} (h : IsOptional ts o) : Nested ts := by
  cases h with
  | none => exact .nil
  | some he => exact he.nested

/-- A declaration that gives a value to a name. -/
lemma nested_initialized {keyword name equal semicolon : Token} {w : Keyword} {e : Expr Unit}
    (hk : keyword.kind = .keyword w) (hn : name.kind = .identifier) (hq : equal.kind = .symbol .equal)
    (he : IsExpression ts e) (hc : semicolon.kind = .symbol .semicolon) :
    Nested (keyword :: name :: equal :: (ts ++ [semicolon])) :=
  .other (isBracket_keyword hk) <| .other (isBracket_identifier hn) <| .other (isBracket_equal hq) <|
    he.nested.concat (isBracket_semicolon hc)

lemma IsLet.nested {s : Stmt Unit} (h : IsLet ts s) : Nested ts := by
  cases h with
  | plain hk hn hc =>
    exact .other (isBracket_keyword hk) (.other (isBracket_identifier hn) (.other (isBracket_semicolon hc) .nil))
  | initialized hk hn hq he hc => exact nested_initialized hk hn hq he hc

lemma IsInitializer.nested {o : Option (Stmt Unit)} (h : IsInitializer ts o) : Nested ts := by
  cases h with
  | none hc => exact .other (isBracket_semicolon hc) .nil
  | letVar hl => exact hl.nested
  | expr he hc => exact he.nested.concat (isBracket_semicolon hc)

lemma IsSignature.nested {name : Ident} {names : List Ident} (h : IsSignature ts name names) :
    Nested ts := by
  cases h with
  | @mk params ts n o c hn ho hp hlist _ hc =>
    have hts : Nested ts := hlist.nested fun part hpart => by
      obtain ⟨t, ht, rfl⟩ := List.mem_map.1 hpart
      exact .other (isBracket_identifier (hp t ht)) .nil
    exact .other (isBracket_identifier hn) (hts.enclosed (pairs_parens ho hc))

lemma IsHeading.nested {name : Ident} {parent : Option (Occurrence Unit)} (h : IsHeading ts name parent) :
    Nested ts := by
  cases h with
  | plain hn => exact .other (isBracket_identifier hn) .nil
  | extending hn hk hp =>
    exact .other (isBracket_identifier hn) (.other (isBracket_keyword hk) (.other (isBracket_identifier hp) .nil))

mutual

theorem IsStatement.nested : ∀ {d : Bool} {ts : List Token} {s : Stmt Unit}, IsStatement d ts s → Nested ts
  | _, _, _, .expr he hc => he.nested.concat (isBracket_semicolon hc)
  | _, _, _, .print hk he hc => .other (isBracket_keyword hk) (he.nested.concat (isBracket_semicolon hc))
  | _, _, _, .return hk ho hc => .other (isBracket_keyword hk) (ho.nested.concat (isBracket_semicolon hc))
  | _, _, _, .block ho hs hc => hs.nested.enclosed (pairs_braces ho hc)
  | _, _, _, .ifThen hk hc hs => .other (isBracket_keyword hk) (hc.nested.append hs.nested)
  | _, _, _, .ifElse hk hc hy ho hn =>
    .other (isBracket_keyword hk)
      (hc.nested.append (hy.nested.append (.other (isBracket_keyword ho) hn.nested)))
  | _, _, _, .while hk hc hs => .other (isBracket_keyword hk) (hc.nested.append hs.nested)
  | _, _, _, .for hk ho hi hcs hm hns hc hs _ _ _ => by
    -- The head of the loop stands between the parentheses, the body behind them.
    have hhead := hi.nested.append (hcs.nested.append (.other (isBracket_semicolon hm) hns.nested))
    have hloop := Nested.pair (pairs_parens ho hc) hhead hs.nested
    simp only [List.append_assoc, List.cons_append] at hloop
    exact .other (isBracket_keyword hk) hloop

theorem IsDeclaration.nested : ∀ {d : Bool} {ts : List Token} {s : Stmt Unit},
    IsDeclaration d ts s → Nested ts
  | _, _, _, .statement hs => hs.nested
  | _, _, _, .letVar hl => hl.nested
  | _, _, _, .constVar hk hn hq he hc => nested_initialized hk hn hq he hc
  | _, _, _, .function hk hf => .other (isBracket_keyword hk) hf.nested
  | _, _, _, .classDecl hk hh ho hm hc =>
    .other (isBracket_keyword hk) (hh.nested.append (hm.nested.enclosed (pairs_braces ho hc)))

theorem AreDeclarations.nested : ∀ {ts : List Token} {ss : List (Stmt Unit)},
    AreDeclarations ts ss → Nested ts
  | _, _, .nil => .nil
  | _, _, .cons hs hss => hs.nested.append hss.nested

theorem IsFunction.nested : ∀ {ts : List Token} {f : Method}, IsFunction ts f → Nested ts
  | _, _, .mk hs ho hb hc => hs.nested.append (hb.nested.enclosed (pairs_braces ho hc))

theorem AreMembers.nested : ∀ {ts : List Token} {methods statics : List Method},
    AreMembers ts methods statics → Nested ts
  | _, _, _, .nil => .nil
  | _, _, _, .method hf hm => hf.nested.append hm.nested
  | _, _, _, .static hk hf hm => .other (isBracket_keyword hk) (hf.nested.append hm.nested)

end

end Grammar

/-! ### Texts -/

variable {source line : String} {P : Program Unit}

lemma nested_of_parse (h : Program.parse ts = .ok P) : Nested (beforeEnd ts) := (parse_ok_iff.1 h).nested

/-- The mark of the end is the last token of a text, and the first of its kind. -/
lemma beforeEnd_ofString (source : String) :
    beforeEnd (Scan.ofString source).tokens = (Scan.ofString source).tokens.dropLast := by
  have hseg := segmentation_ofString source
  have hno : NoEnd (Scan.ofString source).tokens.dropLast := fun t ht =>
    Bool.eq_false_iff.2 fun h => hseg.kind_ne_eof ht (isEnd_eq_true_iff.1 h)
  rw [hseg.tokens_end, beforeEnd_append hno (by simp [AtEnd, Token.isEnd]), List.dropLast_concat]

/-- The tokens of a text are those in front of the mark of its end, and the mark. -/
lemma tokens_ofString (source : String) :
    ∃ t, t.isBracket = false ∧ (Scan.ofString source).tokens = beforeEnd (Scan.ofString source).tokens ++ [t] := by
  refine ⟨⟨.eof, "", 1 + source.toList.count '\n'⟩, rfl, ?_⟩
  rw [beforeEnd_ofString]
  exact (segmentation_ofString source).tokens_end

/-- A text that is read has nested brackets up to and with the mark of its end. -/
lemma nested_tokens (h : Program.parse (Scan.ofString source).tokens = .ok P) :
    Nested (Scan.ofString source).tokens := by
  obtain ⟨t, ht, htokens⟩ := tokens_ofString source
  rw [htokens]
  exact (nested_of_parse h).concat ht

lemma braceDepth_of_parse (h : Program.parse (Scan.ofString source).tokens = .ok P) :
    (Scan.ofString source).braceDepth = 0 := (nested_tokens h).netDepth

/-- **Only nested brackets are read.**  If tokens are read as a program, the brackets in front of the first end
mark are nested.  So a text that is read as a program leaves no brace open, and none of its parts in front closes
a brace that it did not open; a text with an open brace is not read; and the interactive loop submits its lines
as soon as they are a program. -/
theorem parse_nested :
    (∀ ts P, Program.parse ts = .ok P → Nested (beforeEnd ts)) ∧
    (∀ source P, Program.parse (Scan.ofString source).tokens = .ok P →
      (Scan.ofString source).braceDepth = 0 ∧ ClosesOwn (Scan.ofString source).tokens) ∧
    (∀ source, 0 < (Scan.ofString source).braceDepth →
      ∀ P, Program.parse (Scan.ofString source).tokens ≠ .ok P) ∧
    ∀ (r : Repl) line P, Program.parse (Scan.ofString (r.pending ++ line)).tokens = .ok P →
      r.feed line = ((Repl.submit (r.pending ++ line) r.session).1,
        ⟨(Repl.submit (r.pending ++ line) r.session).2, ""⟩) := by
  refine ⟨fun _ _ => nested_of_parse, ?_, ?_, ?_⟩
  · intro source P h
    exact ⟨braceDepth_of_parse h, (nested_tokens h).closesOwn⟩
  · intro source hopen P h
    rw [braceDepth_of_parse h] at hopen
    exact absurd hopen (Int.lt_irrefl 0)
  · intro r line P h
    have hcomplete : Repl.isComplete (r.pending ++ line) = true := by
      simp [Repl.isComplete, braceDepth_of_parse h]
    simp only [Repl.feed, hcomplete, if_true]

/-- Tokens with both brackets, and a block that is held back while its brace is open. -/
theorem parse_nested_block :
    Nested (beforeEnd [⟨.symbol .leftBrace, "\x7b", 1⟩, ⟨.symbol .leftParen, "(", 1⟩, ⟨.identifier, "a", 1⟩,
      ⟨.symbol .rightParen, ")", 1⟩, ⟨.symbol .semicolon, ";", 1⟩, ⟨.symbol .rightBrace, "\x7d", 1⟩]) ∧
    (∀ P, Program.parse (Scan.ofString "\x7b").tokens ≠ .ok P) ∧
    (Scan.ofString "\x7b\x7d").braceDepth = 0 ∧ ClosesOwn (Scan.ofString "\x7b\x7d").tokens := by
  have hgroup : Program.parse [⟨.symbol .leftBrace, "\x7b", 1⟩, ⟨.symbol .leftParen, "(", 1⟩,
      ⟨.identifier, "a", 1⟩, ⟨.symbol .rightParen, ")", 1⟩, ⟨.symbol .semicolon, ";", 1⟩,
      ⟨.symbol .rightBrace, "\x7d", 1⟩] =
      .ok [.block [.expr (.group (.name .identifier ⟨⟨"a", 1⟩, ()⟩))]] := by cbv
  have hread : Program.parse (Scan.ofString "\x7b\x7d").tokens = .ok [.block []] := by
    rw [Scan.ofString_eq_dispatch]
    cbv
  have hdepth : (Scan.ofString "\x7b").braceDepth = 1 := by
    rw [Scan.ofString_eq_dispatch]
    cbv
  have hopen : 0 < (Scan.ofString "\x7b").braceDepth := hdepth ▸ Int.zero_lt_one
  exact ⟨parse_nested.1 _ _ hgroup, parse_nested.2.2.1 _ hopen, parse_nested.2.1 _ _ hread⟩

end ScriptLang

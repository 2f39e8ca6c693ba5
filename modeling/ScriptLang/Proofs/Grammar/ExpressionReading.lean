import ScriptLang.Proofs.Grammar.ExpressionSound

/-!
# Reading expressions

The rules for expressions read exactly the phrases of the grammar, each as far as it goes.

* `Read` — a phrase is read by the rule of its stratum, in front of any token that does not go on;
* `phrase_read` — the induction on the phrase;
* `expression_reads_iff` — both directions, with the uniqueness of the tree.
-/

namespace ScriptLang.Grammar

open Outcome

/-! ### A phrase is read -/

/-- The levels that bind tighter than the given one. -/
def tighterLevels (l : Level) : List Level := (Level.all.dropWhile (· ≠ l)).tail

/-- The phrase `ts` of a stratum with the tree `e` is read, in front of tokens that do not go on.  Where
the rule of the stratum ends in a loop, the phrase is what the loop has read at some point. -/
def Read : Stratum → List Token → Expr Unit → Prop
  | .assignment, ts, e => ∀ path rest, Stops .assignment rest →
      (assignment path (ts ++ rest)).Reads e rest
  | .level l, ts, e => ∀ path all rest value after, all = ts ++ rest → Stops l.operand rest →
      (∀ left : Parsed (Expr Unit) all, left.value = e → left.rest = rest →
        (chain (path.enter l.rule) l (tighterLevels l) left).Reads value after) →
      (operators path (l :: tighterLevels l) all).Reads value after
  | .unary, ts, e => ∀ path rest, Stops .unary rest → (unary path (ts ++ rest)).Reads e rest
  | .call, ts, e => ∀ path all rest value after, all = ts ++ rest →
      (∀ left : Parsed (Expr Unit) all, left.value = e → left.rest = rest →
        (calls (path.enter .call) left).Reads value after) →
      (call path all).Reads value after
  | .primary, ts, e => ∀ path rest, (primary path (ts ++ rest)).Reads e rest

section Completeness

variable {path : Path} {ts us mid rest after : List Token} {t : Token} {e value : Expr Unit}

lemma chain_reads {l : Level} {tighter : List Level} {left : Parsed (Expr Unit) ts} {op : Operator}
    {right : Expr Unit} (hr : left.rest = t :: us) (hop : Joins l t.kind op)
    (ho : (operators path tighter us).Reads right mid)
    (h : ∀ next : Parsed (Expr Unit) ts, next.value = op.apply t.line left.value right →
      next.rest = mid → (chain path l tighter next).Reads value after) :
    (chain path l tighter left).Reads value after := by
  obtain ⟨p, hp, rfl, rfl⟩ := ho
  have proper : ProperSuffix p.rest ts :=
    p.proper.trans (hr ▸ left.proper : ProperSuffix (t :: us) ts).of_cons
  obtain ⟨q, hq, hv, ha⟩ := h ⟨_, p.rest, proper⟩ rfl rfl
  refine ⟨q, (chain_step hr (onLevel?_eq_some_iff.2 hop)).2 ⟨p, hp, ?_⟩, hv, ha⟩
  rintro ⟨v, r, hn⟩ hv' hr'
  dsimp only at hv' hr'
  subst hv' hr'
  exact hq

lemma chain_reads_stop {l : Level} {tighter : List Level} {left : Parsed (Expr Unit) ts}
    (h : Stops (.level l) rest) (hv : left.value = e) (hr : left.rest = rest) :
    (chain path l tighter left).Reads e rest := by
  rw [chain_stop fun t ht => onLevel?_eq_none (h t (hr ▸ ht))]
  exact reads_pure.2 ⟨hv, hr⟩

lemma calls_reads_arguments {left : Parsed (Expr Unit) ts} {es : List (Expr Unit)} {line : Nat}
    (hr : left.rest = t :: us) (hk : t.kind = .symbol .leftParen)
    (ha : (arguments path 0 us).Reads (es, line) mid)
    (h : ∀ next : Parsed (Expr Unit) ts, next.value = .call line left.value es →
      next.rest = mid → (calls path next).Reads value after) :
    (calls path left).Reads value after := by
  obtain ⟨p, hp, hes, rfl⟩ := ha
  have proper : ProperSuffix p.rest ts :=
    p.proper.trans (hr ▸ left.proper : ProperSuffix (t :: us) ts).of_cons
  obtain ⟨q, hq, hv, ha⟩ := h ⟨_, p.rest, proper⟩ rfl rfl
  refine ⟨q, (calls_arguments hr hk).2 ⟨p, hp, ?_⟩, hv, ha⟩
  rintro ⟨v, r, hn⟩ hv' hr'
  dsimp only at hv' hr'
  rw [hes] at hv'
  subst hv' hr'
  exact hq

lemma calls_reads_property {left : Parsed (Expr Unit) ts} {name : Ident} (hr : left.rest = t :: us)
    (hk : t.kind = .symbol .dot) (hn : (identifier path us).Reads name mid)
    (h : ∀ next : Parsed (Expr Unit) ts, next.value = property left.value name →
      next.rest = mid → (calls path next).Reads value after) :
    (calls path left).Reads value after := by
  obtain ⟨p, hp, rfl, rfl⟩ := hn
  have proper : ProperSuffix p.rest ts :=
    p.proper.trans (hr ▸ left.proper : ProperSuffix (t :: us) ts).of_cons
  obtain ⟨q, hq, hv, ha⟩ := h ⟨_, p.rest, proper⟩ rfl rfl
  refine ⟨q, (calls_property hr hk).2 ⟨p, hp, ?_⟩, hv, ha⟩
  rintro ⟨v, r, hn⟩ hv' hr'
  dsimp only at hv' hr'
  subst hv' hr'
  exact hq

/-- Operands on a level are read by the rule for the tighter levels. -/
lemma Read.operand {l : Level} (h : Read l.operand ts e) (hs : Stops l.operand rest) :
    (operators path (tighterLevels l) (ts ++ rest)).Reads e rest := by
  cases hl : l.operand with
  | level l' =>
    rw [hl] at h hs
    have ht : tighterLevels l = l' :: tighterLevels l' := by
      cases l <;> cases hl <;> rfl
    rw [ht]
    exact h path _ rest e rest rfl (hs.mono fun k => .ofOperand) fun left => chain_reads_stop hs
  | unary =>
    rw [hl] at h hs
    have ht : tighterLevels l = [] := by
      cases l <;> cases hl
      rfl
    rw [ht, operators]
    exact h path rest hs
  | _ => cases l <;> cases hl

lemma Read.ofOperand {l : Level} (h : Read l.operand ts e) : Read (.level l) ts e := by
  intro path all rest value after hall hs hchain
  subst hall
  rw [operators]
  exact (h.operand hs).bind hchain

lemma Read.ofOr (h : Read (.level .or) ts e) : Read .assignment ts e := by
  intro path rest hs
  rw [assignment]
  have hor : Stops (.level .or) rest := hs.mono fun k => .ofOr
  have hread : (operators (path.enter .assignment) Level.all (ts ++ rest)).Reads e rest :=
    h _ _ rest e rest rfl (hor.mono fun k => .ofOperand) fun left => chain_reads_stop hor
  refine hread.bind fun p hv hr => ?_
  split
  · exact reads_pure.2 ⟨hv, hr⟩
  · next t us hr' =>
    split
    · next hk =>
      refine absurd (hk ▸ .assign) (hs t ?_)
      rw [← hr, hr']
      rfl
    · exact reads_pure.2 ⟨hv, hr⟩

lemma Read.assign {target : Expr Unit} (ht : Read (.level .or) ts target)
    (hk : t.kind = .symbol .equal) (hv : Read .assignment us value) (he : Assigns target value e) :
    Read .assignment (ts ++ t :: us) e := by
  intro path rest hs
  have hor : Stops (.level .or) (t :: (us ++ rest)) := .of_kind (hk ▸ not_goesOn_equal)
  rw [List.append_assoc, List.cons_append, assignment]
  have hread : (operators (path.enter .assignment) Level.all (ts ++ t :: (us ++ rest))).Reads target _ :=
    ht _ _ _ target _ rfl (hor.mono fun k => .ofOperand) fun left => chain_reads_stop hor
  refine hread.bind fun p hp hr => ?_
  split
  · next hr' => rw [hr] at hr'; cases hr'
  · next t' us' hr' =>
    rw [hr] at hr'
    obtain ⟨rfl, rfl⟩ := List.cons.inj hr'
    rw [hk]
    refine Reads.bind (hv _ rest hs) fun q hq hqr => ?_
    rw [hp, hq, assign?_eq_some_iff.2 he]
    exact reads_pure.2 ⟨rfl, hqr⟩

lemma Read.joined {l : Level} {op : Operator} {left right : Expr Unit} (hl : Read (.level l) ts left)
    (hop : Joins l t.kind op) (hr : Read l.operand us right) :
    Read (.level l) (ts ++ t :: us) (op.apply t.line left right) := by
  intro path all rest value after hall hs hchain
  rw [List.append_assoc] at hall
  refine hl path all _ value after hall (.of_kind hop.not_goesOn_operand) fun p hv hp => ?_
  refine chain_reads hp hop (hr.operand hs) fun next hn => hchain next ?_
  rw [hn, hv]

lemma Read.ofCall (hp : Phrase .call ts e) (h : Read .call ts e) : Read .unary ts e := by
  intro path rest hs
  have hcall : ∀ path, (call path (ts ++ rest)).Reads e rest := by
    intro path
    refine h path _ rest e rest rfl fun left hv hr => ?_
    rw [calls_stop fun t ht hg => hs t (hr ▸ ht) (.ofCall hg)]
    exact reads_pure.2 ⟨hv, hr⟩
  obtain ⟨t, us, rfl, ht⟩ := hp.call_begins (.inl rfl)
  rw [List.cons_append, unary]
  split
  · exact hcall _
  · next op hop => exact absurd (unaryOp_ofKind?_eq_some_iff.1 hop) (ht op)

lemma Read.led {op : UnaryOp} (hop : Leads t.kind op) (h : Read .unary ts e) :
    Read .unary (t :: ts) (.unary op t.line e) := by
  intro path rest hs
  rw [List.cons_append, unary, unaryOp_ofKind?_eq_some_iff.2 hop]
  refine Reads.bind (h _ rest hs) fun p hv hr => reads_pure.2 ⟨?_, hr⟩
  rw [← hv]
  rfl

lemma Read.ofPrimary (h : Read .primary ts e) : Read .call ts e := by
  intro path all rest value after hall hcalls
  subst hall
  rw [call]
  exact (h _ rest).bind hcalls

lemma Read.atom (h : Atom t e) : Read .primary [t] e := by
  intro path rest
  rw [List.cons_append, List.nil_append, primary]
  split
  · next hk => cases h <;> simp_all
  · rw [atom?_eq_some_iff.2 h]
    exact reads_pure.2 ⟨rfl, rfl⟩

lemma Read.group {opening closing : Token} (ho : opening.kind = .symbol .leftParen)
    (h : Read .assignment ts e) (hc : closing.kind = .symbol .rightParen) :
    Read .primary (opening :: (ts ++ [closing])) (.group e) := by
  intro path rest
  rw [List.cons_append, List.append_assoc, List.singleton_append, primary, ho]
  have hinner := h (((path.enter .primary).enter .expression)) (closing :: rest)
    (stops_closing hc (.inr (.inl rfl)))
  rw [← expression] at hinner
  refine hinner.bind fun p hp hr => ?_
  have hclose : (symbol (path.enter .primary) .rightParen p.rest).Reads closing.line rest :=
    symbol_reads.2 ⟨closing, hr, hc, rfl⟩
  refine hclose.bind fun q hq hqr => reads_pure.2 ⟨?_, hqr⟩
  rw [← hp]
  rfl

/-- One argument in front of a comma or of the closing parenthesis. -/
lemma arguments_reads {count : Nat} (hstart : ¬ startsWith .rightParen ts = true) (hcount : count < 254)
    (he : (expression path ts).Reads e (t :: us)) {es : List (Expr Unit)} {line : Nat}
    (h : t.kind = .symbol .comma ∧ (arguments path (count + 1) us).Reads (es, line) rest ∨
      t.kind = .symbol .rightParen ∧ es = [] ∧ line = t.line ∧ rest = us) :
    (arguments path count ts).Reads (e :: es, line) rest := by
  rw [arguments, if_neg hstart]
  refine reads_bind.2 ⟨(), yields_reportIf.2 (decide_eq_false (by unfold maxArguments; omega)), ?_⟩
  refine he.bind fun arg hv hr => ?_
  split
  · next hr' => rw [hr'] at hr; cases hr
  · next t' us' hr' =>
    rw [hr'] at hr
    obtain ⟨rfl, rfl⟩ := List.cons.inj hr
    rcases h with ⟨hk, h⟩ | ⟨hk, rfl, rfl, rfl⟩
    · rw [hk]
      refine h.bind fun more hm hmr => reads_pure.2 ⟨?_, hmr⟩
      simp [Parsed.within, Parsed.map, hm, hv]
    · rw [hk]
      exact reads_pure.2 ⟨by rw [hv], rfl⟩

/-- Listed phrases are read as arguments. -/
lemma listed_reads {parts : List (List Token × Expr Unit)} (h : Listed parts ts)
    (hp : ∀ part ∈ parts, Phrase .assignment part.1 part.2 ∧ Read .assignment part.1 part.2)
    (hk : t.kind = .symbol .rightParen) : ∀ (path : Path) (count : Nat), count + parts.length ≤ 254 →
    (arguments path count (ts ++ t :: rest)).Reads (parts.map (·.2), t.line) rest := by
  have hstart : ∀ part ∈ parts, ∀ us, ¬ startsWith .rightParen (part.1 ++ us) = true := by
    intro part hpart us hs
    obtain ⟨t', vs, ht, hb⟩ := (hp part hpart).1.begins
    obtain ⟨t'', ws, h'', hk''⟩ := startsWith_iff.1 hs
    rw [ht] at h''
    obtain ⟨rfl, -⟩ := List.cons.inj h''
    rw [hk''] at hb
    exact absurd hb.symbol (by decide)
  induction h with
  | nil =>
    intro path count _
    rw [List.nil_append, arguments, if_pos (startsWith_cons hk)]
    refine Reads.bind (symbol_reads.2 ⟨t, rfl, hk, rfl⟩) fun p hv hr => reads_pure.2 ⟨?_, hr⟩
    simp [Parsed.map, hv]
  | @last part =>
    intro path count hn
    have hpart := hp part (List.mem_singleton_self part)
    refine arguments_reads (hstart _ (List.mem_singleton_self part) _) hn ?_
      (.inr ⟨hk, rfl, rfl, rfl⟩)
    rw [expression]
    exact hpart.2 _ _ (stops_closing hk (.inr (.inl rfl)))
  | @cons part parts comma ts hc _ ih =>
    intro path count hn
    rw [List.length_cons] at hn
    have hpart := hp part List.mem_cons_self
    have hmore := ih (fun q hq => hp q (List.mem_cons_of_mem part hq))
      (fun q hq => hstart q (List.mem_cons_of_mem part hq)) path (count + 1) (by omega)
    rw [List.append_assoc, List.cons_append]
    refine arguments_reads (hstart _ List.mem_cons_self _) (by omega) ?_ (.inl ⟨hc, hmore⟩)
    rw [expression]
    exact hpart.2 _ _ (stops_closing hc (.inl rfl))

lemma Read.call {callee : Expr Unit} {parts : List (List Token × Expr Unit)}
    {opening closing : Token} (hc : Read .call ts callee) (ho : opening.kind = .symbol .leftParen)
    (hp : ∀ part ∈ parts, Phrase .assignment part.1 part.2 ∧ Read .assignment part.1 part.2)
    (hl : Listed parts us) (hn : parts.length ≤ 254) (hk : closing.kind = .symbol .rightParen) :
    Read .call (ts ++ opening :: (us ++ [closing]))
      (.call closing.line callee (parts.map (·.2))) := by
  intro path all rest value after hall hcalls
  rw [List.append_assoc, List.cons_append, List.append_assoc, List.singleton_append] at hall
  refine hc path all _ value after hall fun left hv hr => ?_
  refine calls_reads_arguments hr ho (listed_reads hl hp hk _ 0 (by omega)) fun next hn => hcalls next ?_
  rw [hn, hv]

lemma Read.property {object : Expr Unit} {dot name : Token} (h : Read .call ts object)
    (hd : dot.kind = .symbol .dot) (hn : name.kind = .identifier)
    (he : Selects name.ident object e) : Read .call (ts ++ [dot, name]) e := by
  intro path all rest value after hall hcalls
  rw [List.append_assoc] at hall
  refine h path all _ value after hall fun left hv hr => ?_
  refine calls_reads_property hr hd (identifier_reads.2 ⟨name, rfl, hn, rfl⟩) fun next hnext =>
    hcalls next ?_
  rw [hnext, hv]
  exact property_eq_iff.2 he

/-- **A phrase is read.** -/
theorem phrase_read {s : Stratum} (h : Phrase s ts e) : Read s ts e := by
  induction h with
  | ofOr _ ih => exact ih.ofOr
  | assign _ hk _ he iht ihv => exact iht.assign hk ihv he
  | ofOperand _ ih => exact ih.ofOperand
  | joined _ hop _ ihl ihr => exact ihl.joined hop ihr
  | ofCall hp ih => exact ih.ofCall hp
  | led hop _ ih => exact ih.led hop
  | ofPrimary _ ih => exact ih.ofPrimary
  | call _ ho hp hl hn hk ihc ihp =>
    exact ihc.call ho (fun part hm => ⟨hp part hm, ihp part hm⟩) hl hn hk
  | property _ hd hn he ih => exact ih.property hd hn he
  | atom ha => exact .atom ha
  | group ho _ hc ih => exact ih.group ho hc

end Completeness

/-! ### Expressions -/

section Expressions

variable {path : Path} {ts us rest : List Token} {e e' : Expr Unit}

lemma expression_sound (h : (expression path ts).Reads e rest) :
    ∃ us, ts = us ++ rest ∧ Phrase .assignment us e ∧ Stops .assignment rest := by
  rw [expression] at h
  obtain ⟨p, hp, rfl, rfl⟩ := h
  exact assignment_sound ts _ p hp

lemma expression_reads (h : Phrase .assignment us e) (hs : Stops .assignment rest) :
    (expression path (us ++ rest)).Reads e rest := by
  rw [expression]
  exact phrase_read h _ rest hs

/-- Tokens form at most one expression. -/
lemma phrase_unique (h : Phrase .assignment ts e) (h' : Phrase .assignment ts e') : e = e' := by
  have hs : Stops .assignment [] := fun _ ht => nomatch ht
  have hread : (expression [] (ts ++ [])).Reads e [] := expression_reads h hs
  exact (reads_unique hread (expression_reads h' hs)).1

end Expressions

/-- **The reader of expressions is the grammar of expressions.**  It reads an expression without a
diagnostic exactly if the tokens it takes form a phrase and the next one cannot go on; and tokens form one
phrase at most. -/
theorem expression_reads_iff (path : Path) (ts rest : List Token) (e : Expr Unit) :
    ((expression path ts).Reads e rest ↔
      ∃ us, ts = us ++ rest ∧ Phrase .assignment us e ∧ ∀ t ∈ rest.head?, ¬ Extends t.kind) ∧
    ∀ us e₁ e₂, Phrase .assignment us e₁ → Phrase .assignment us e₂ → e₁ = e₂ := by
  have hstops : Stops .assignment rest ↔ ∀ t ∈ rest.head?, ¬ Extends t.kind :=
    forall₂_congr fun t _ => not_congr goesOn_assignment_iff
  refine ⟨?_, fun us e₁ e₂ => phrase_unique⟩
  rw [← hstops]
  constructor
  · exact expression_sound
  · rintro ⟨us, rfl, hp, hs⟩
    exact expression_reads hp hs

end ScriptLang.Grammar

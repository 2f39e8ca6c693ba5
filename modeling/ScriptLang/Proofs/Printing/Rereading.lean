import ScriptLang.Proofs.Grammar.SentencesOnLines
import ScriptLang.Proofs.Printing.PieceRows

/-!
# Reading an expression again

The tokens of an expression's text, on whatever lines they stand, form the expression again, up to lines, if there
are no operators in it.  Since the text keeps no parentheses but those of the tree, this holds only of trees that the
grammar gives: what is assigned to and what is called are phrases already.

* `AreTokensOf` — the tokens among some pieces;
* `Expr.parts` — an expression and the expressions in it;
* `Expr.unlined` — an expression without its lines;
* `Phrase.reread` — the theorem.
-/

namespace ScriptLang

open Piece

variable {ι : Type} {text : List Char} {kind : Kind} {ps qs : List Piece} {t : Token} {ts us : List Token}

/-! ### The tokens among pieces -/

/-- The tokens are those among the pieces, on whatever lines they stand. -/
def AreTokensOf (us : List Token) (ps : List Piece) : Prop := us.map Token.content = contents ps

namespace AreTokensOf

lemma nil (h : AreTokensOf us []) : us = [] := List.map_eq_nil_iff.1 h

lemma append (h : AreTokensOf us (ps ++ qs)) : ∃ vs ws, us = vs ++ ws ∧ AreTokensOf vs ps ∧ AreTokensOf ws qs := by
  rw [AreTokensOf, contents, List.filterMap_append] at h
  exact List.map_eq_append_iff.1 h

lemma space (h : AreTokensOf us (space :: ps)) : AreTokensOf us ps := h

lemma lineBreak (h : AreTokensOf us (lineBreak :: ps)) : AreTokensOf us ps := h

lemma token (h : AreTokensOf us (.token kind text :: ps)) :
    ∃ t vs, us = t :: vs ∧ t.kind = kind ∧ t.lexeme = String.ofList text ∧ AreTokensOf vs ps := by
  obtain ⟨t, vs, rfl, ht, hvs⟩ := List.map_eq_cons_iff.1 h
  obtain ⟨hkind, hlexeme⟩ := Prod.mk.inj ht
  exact ⟨t, vs, rfl, hkind, hlexeme, hvs⟩

lemma name {n : String} (h : AreTokensOf us (.name n :: ps)) :
    ∃ t vs, us = t :: vs ∧ t.kind = .identifier ∧ t.lexeme = n ∧ AreTokensOf vs ps := by
  obtain ⟨t, vs, rfl, hkind, hlexeme, hvs⟩ := token h
  exact ⟨t, vs, rfl, hkind, hlexeme.trans String.ofList_toList, hvs⟩

lemma symbol {s : Symbol} (h : AreTokensOf us (symbol s :: ps)) :
    ∃ t vs, us = t :: vs ∧ t.kind = .symbol s ∧ AreTokensOf vs ps := by
  obtain ⟨t, vs, rfl, hkind, -, hvs⟩ := token h
  exact ⟨t, vs, rfl, hkind, hvs⟩

lemma keyword {w : Keyword} (h : AreTokensOf us (keyword w :: ps)) :
    ∃ t vs, us = t :: vs ∧ t.kind = .keyword w ∧ AreTokensOf vs ps := by
  obtain ⟨t, vs, rfl, hkind, -, hvs⟩ := token h
  exact ⟨t, vs, rfl, hkind, hvs⟩

/-- A row with a symbol behind it. -/
lemma closed {s : Symbol} (h : AreTokensOf us (ps ++ [Piece.symbol s])) :
    ∃ vs t, us = vs ++ [t] ∧ AreTokensOf vs ps ∧ t.kind = .symbol s := by
  obtain ⟨vs, ws, rfl, hvs, hws⟩ := h.append
  obtain ⟨t, xs, rfl, ht, hxs⟩ := hws.symbol
  obtain rfl := hxs.nil
  exact ⟨vs, t, rfl, hvs, ht⟩

lemma inParens (h : AreTokensOf us (inParens ps)) : ∃ o vs c, us = o :: (vs ++ [c]) ∧
    o.kind = .symbol .leftParen ∧ AreTokensOf vs ps ∧ c.kind = .symbol .rightParen := by
  obtain ⟨o, us, rfl, ho, hus⟩ := h.symbol
  obtain ⟨vs, c, rfl, hvs, hc⟩ := hus.closed
  exact ⟨o, vs, c, rfl, ho, hvs, hc⟩

lemma inBraces (h : AreTokensOf us (inBraces ps)) : ∃ o vs c, us = o :: (vs ++ [c]) ∧
    o.kind = .symbol .leftBrace ∧ AreTokensOf vs ps ∧ c.kind = .symbol .rightBrace := by
  obtain ⟨o, us, rfl, ho, hus⟩ := h.symbol
  obtain ⟨vs, c, rfl, hvs, hc⟩ := hus.lineBreak.closed
  exact ⟨o, vs, c, rfl, ho, hvs, hc⟩

lemma assigned (h : AreTokensOf us (assigned ps)) :
    ∃ q vs, us = q :: vs ∧ q.kind = .symbol .equal ∧ AreTokensOf vs ps := h.space.symbol

end AreTokensOf

/-! ### Expressions in a tree -/

mutual

/-- An expression and the expressions in it. -/
def Expr.parts : Expr ι → List (Expr ι)
  | .literal value => [.literal value]
  | .name kind use => [.name kind use]
  | .assign target value => .assign target value :: value.parts
  | .unary op line operand => .unary op line operand :: operand.parts
  | .binary op line left right => .binary op line left right :: (left.parts ++ right.parts)
  | .logical op line left right => .logical op line left right :: (left.parts ++ right.parts)
  | .group inner => .group inner :: inner.parts
  | .call line callee args => .call line callee args :: (callee.parts ++ Expr.partsList args)
  | .get object property => .get object property :: object.parts
  | .superGet keyword property => [.superGet keyword property]
  | .set object property value => .set object property value :: (object.parts ++ value.parts)

/-- Several expressions and the expressions in them. -/
def Expr.partsList : List (Expr ι) → List (Expr ι)
  | [] => []
  | e :: es => e.parts ++ Expr.partsList es

end

/-- The expression is an operator with its operands. -/
inductive Expr.IsOperation : Expr ι → Prop
  | unary {op line operand} : IsOperation (.unary op line operand)
  | binary {op line left right} : IsOperation (.binary op line left right)
  | logical {op line left right} : IsOperation (.logical op line left right)

/-- There are no operators in the expression. -/
def Expr.OperatorFree (e : Expr ι) : Prop := ∀ d ∈ e.parts, ¬ d.IsOperation

lemma partsList_forall {p : Expr ι → Prop} {es : List (Expr ι)} (h : ∀ d ∈ Expr.partsList es, p d) :
    ∀ e ∈ es, ∀ d ∈ e.parts, p d := by
  induction es with
  | nil => exact nofun
  | cons e es ih =>
    obtain ⟨he, hes⟩ := List.forall_mem_append.1 h
    exact List.forall_mem_cons.2 ⟨he, ih hes⟩

lemma operator_operation (op : Operator) (line : Nat) (left right : Expr Unit) :
    (op.apply line left right).IsOperation := by
  cases op with
  | binary => exact .binary
  | logical => exact .logical

lemma Expr.mem_parts (e : Expr ι) : e ∈ e.parts := by
  cases e <;> exact List.mem_cons_self

/-! ### Trees without lines -/

/-- The expression without its lines. -/
def Expr.unlined (e : Expr ι) : Expr ι := e.relabel (fun _ => 0) id

/-- The name without its line. -/
def Ident.unlined (n : Ident) : Ident := n.relabel fun _ => 0

/-- The use of a name without its line. -/
def Occurrence.unlined (use : Occurrence ι) : Occurrence ι := ⟨use.toIdent.unlined, use.id⟩

lemma ident_unlined {n : Ident} (h : t.lexeme = n.text) : t.ident.unlined = n.unlined := congrArg (Ident.mk · 0) h

lemma use_unlined {use : Occurrence Unit} (h : t.lexeme = use.text) : t.use.unlined = use.unlined :=
  congrArg (fun n => Occurrence.mk (Ident.mk n 0) ()) h

lemma unlinedList_eq_map (es : List (Expr ι)) :
    Expr.relabelList (fun _ => 0) id es = es.map Expr.unlined := relabelList_eq_map es

/-! ### What is assigned to and what is read -/

section Targets

variable {target target' value value' object object' e : Expr Unit} {name name' : Ident}

lemma Assigns.pieces (h : Assigns target value e) : e.pieces = target.pieces ++ assigned value.pieces := by
  cases h with
  | «variable» => rfl
  | property => simp [Expr.pieces]
  | superProperty => rfl

lemma Assigns.forall_parts {p : Expr Unit → Prop} (h : Assigns target value e) (ht : p target)
    (he : ∀ d ∈ e.parts, p d) : (∀ d ∈ target.parts, p d) ∧ ∀ d ∈ value.parts, p d := by
  cases h with
  | «variable» => exact ⟨List.forall_mem_singleton.2 ht, (List.forall_mem_cons.1 he).2⟩
  | property =>
    obtain ⟨hobject, hvalue⟩ := List.forall_mem_append.1 (List.forall_mem_cons.1 he).2
    exact ⟨List.forall_mem_cons.2 ⟨ht, hobject⟩, hvalue⟩
  | superProperty =>
    obtain ⟨-, hvalue⟩ := List.forall_mem_append.1 (List.forall_mem_cons.1 he).2
    exact ⟨List.forall_mem_singleton.2 ht, hvalue⟩

lemma Assigns.not_operation (h : Assigns target value e) : ¬ target.IsOperation := by
  cases h <;> exact nofun

/-- Assigning to the same on another line. -/
lemma Assigns.unlined (h : Assigns target value e) (ht : target'.unlined = target.unlined)
    (hv : value'.unlined = value.unlined) : ∃ e', Assigns target' value' e' ∧ e'.unlined = e.unlined := by
  cases h with
  | «variable» =>
    cases target' with
    | name kind use' =>
      obtain ⟨rfl, huse⟩ := Expr.name.inj ht
      exact ⟨_, .variable, congrArg₂ Expr.assign huse hv⟩
    | _ => cases ht
  | property =>
    cases target' with
    | get object' name' =>
      obtain ⟨hobject, hname⟩ := Expr.get.inj ht
      refine ⟨_, .property, ?_⟩
      exact (congrArg₂ (Expr.set · · _) hobject hname).trans (congrArg (Expr.set _ _) hv)
    | _ => cases ht
  | superProperty =>
    cases target' with
    | superGet keyword' name' =>
      obtain ⟨hkeyword, hname⟩ := Expr.superGet.inj ht
      refine ⟨_, .superProperty, ?_⟩
      exact (congrArg₂ (fun k n => Expr.set (.name .super k) n _) hkeyword hname).trans (congrArg (Expr.set _ _) hv)
    | _ => cases ht

lemma Selects.pieces (h : Selects name object e) :
    e.pieces = object.pieces ++ [symbol .dot, .name name.text] := by
  cases h <;> rfl

lemma Selects.forall_parts {p : Expr Unit → Prop} (h : Selects name object e) (hp : ∀ kind use, p (.name kind use))
    (he : ∀ d ∈ e.parts, p d) : ∀ d ∈ object.parts, p d := by
  cases h with
  | super => exact List.forall_mem_singleton.2 (hp _ _)
  | get => exact (List.forall_mem_cons.1 he).2

/-- Reading a property of the same on another line. -/
lemma Selects.unlined (h : Selects name object e) (hn : name'.unlined = name.unlined)
    (ho : object'.unlined = object.unlined) : ∃ e', Selects name' object' e' ∧ e'.unlined = e.unlined := by
  cases h with
  | super =>
    cases object' with
    | name kind use' =>
      obtain ⟨rfl, huse⟩ := Expr.name.inj ho
      exact ⟨_, .super, congrArg₂ Expr.superGet huse hn⟩
    | _ => cases ho
  | get hnot =>
    refine ⟨_, .get fun use' huse => ?_, congrArg₂ Expr.get ho hn⟩
    subst huse
    cases object with
    | name kind use =>
      obtain ⟨rfl, -⟩ := Expr.name.inj ho
      exact hnot use rfl
    | _ => cases ho

end Targets

/-! ### Phrases -/

/-- The tokens of an expression's text are a phrase of the stratum with the same tree, up to lines. -/
def Rereads (s : Stratum) (e : Expr Unit) : Prop :=
  ∀ us, AreTokensOf us e.pieces → ∃ e', Phrase s us e' ∧ e'.unlined = e.unlined

lemma literal_reread {v : Literal} (hatom : ∀ u : Token, u.kind = v.kind → Atom u (.literal v)) :
    Rereads .primary (.literal v) := by
  intro us hus
  obtain ⟨u, vs, rfl, hkind, -, hvs⟩ := hus.token
  obtain rfl := hvs.nil
  exact ⟨_, .atom (hatom u hkind), rfl⟩

lemma name_reread {kind : NameKind} (use : Occurrence Unit)
    (hatom : ∀ u : Token, u.kind = kind.kind → Atom u (.name kind u.use)) : Rereads .primary (.name kind use) := by
  intro us hus
  obtain ⟨u, vs, rfl, hkind, hlexeme, hvs⟩ := hus.token
  obtain rfl := hvs.nil
  have huse : u.use.unlined = use.unlined := use_unlined (hlexeme.trans String.ofList_toList)
  exact ⟨_, .atom (hatom u hkind), congrArg (Expr.name kind) huse⟩

lemma Atom.reread {e : Expr Unit} (h : Atom t e) : Rereads .primary e := by
  cases h with
  | number => exact literal_reread fun _ => .number
  | string => exact literal_reread fun _ => .string
  | trueLit => exact literal_reread fun _ => .trueLit
  | falseLit => exact literal_reread fun _ => .falseLit
  | null => exact literal_reread fun _ => .null
  | identifier => exact name_reread _ fun _ => .identifier
  | this => exact name_reread _ fun _ => .this
  | super => exact name_reread _ fun _ => .super

/-- Parts with commas between them, each read again as something that is the same up to lines. -/
lemma listed_reread {α β γ : Type} {f : α → List Piece} {p : List Token → β → Prop} {g : α → γ} {g' : β → γ}
    {as : List α} (h : ∀ a ∈ as, ∀ us, AreTokensOf us (f a) → ∃ b, p us b ∧ g' b = g a)
    (hus : AreTokensOf us (withCommas (as.map f))) : ∃ parts : List (List Token × β),
      (∀ part ∈ parts, p part.1 part.2) ∧ Listed parts us ∧ parts.map (fun part => g' part.2) = as.map g := by
  induction as generalizing us with
  | nil =>
    obtain rfl := hus.nil
    exact ⟨[], nofun, .nil, rfl⟩
  | cons a as ih =>
    obtain ⟨ha, has⟩ := List.forall_mem_cons.1 h
    cases as with
    | nil =>
      rw [List.map_cons, List.map_nil, withCommas, List.intercalate_singleton] at hus
      obtain ⟨b, hb, heq⟩ := ha us hus
      exact ⟨[(us, b)], List.forall_mem_singleton.2 hb, .last, congrArg (fun c => [c]) heq⟩
    | cons a' as =>
      rw [List.map_cons, List.map_cons, withCommas, List.intercalate_cons_cons] at hus
      obtain ⟨_, ws, rfl, hfirst, hws⟩ := hus.append
      obtain ⟨vs, xs, rfl, hvs, hxs⟩ := hfirst.append
      obtain ⟨comma, ys, rfl, hcomma, hys⟩ := hxs.symbol
      obtain rfl := hys.space.nil
      obtain ⟨b, hb, heq⟩ := ha vs hvs
      obtain ⟨parts, hparts, hlist, hmap⟩ := ih has hws
      refine ⟨(vs, b) :: parts, List.forall_mem_cons.2 ⟨hb, hparts⟩, ?_, congrArg₂ List.cons heq hmap⟩
      rw [List.append_assoc]
      exact .cons hcomma hlist

lemma piecesList_eq_map (es : List (Expr ι)) : Expr.piecesList es = es.map Expr.pieces := by
  induction es with
  | nil => rfl
  | cons e es ih => rw [Expr.piecesList, ih, List.map_cons]

/-- **The text of an expression without operators is read as the expression again**, up to lines. -/
lemma Phrase.reread {s : Stratum} {e : Expr Unit} (h : Phrase s ts e) : e.OperatorFree → Rereads s e := by
  induction h with
  | ofOr _ ih =>
    intro hfree us hus
    obtain ⟨e', hphrase, heq⟩ := ih hfree us hus
    exact ⟨e', .ofOr hphrase, heq⟩
  | ofOperand _ ih =>
    intro hfree us hus
    obtain ⟨e', hphrase, heq⟩ := ih hfree us hus
    exact ⟨e', .ofOperand hphrase, heq⟩
  | ofCall _ ih =>
    intro hfree us hus
    obtain ⟨e', hphrase, heq⟩ := ih hfree us hus
    exact ⟨e', .ofCall hphrase, heq⟩
  | ofPrimary _ ih =>
    intro hfree us hus
    obtain ⟨e', hphrase, heq⟩ := ih hfree us hus
    exact ⟨e', .ofPrimary hphrase, heq⟩
  | assign _ _ _ ha iht ihv =>
    intro hfree us hus
    obtain ⟨htarget, hvalue⟩ := ha.forall_parts ha.not_operation hfree
    rw [ha.pieces] at hus
    obtain ⟨vs, ws, rfl, hvs, hws⟩ := hus.append
    obtain ⟨equal, xs, rfl, hequal, hxs⟩ := hws.assigned
    obtain ⟨target', ht, hteq⟩ := iht htarget vs hvs
    obtain ⟨value', hv, hveq⟩ := ihv hvalue xs hxs
    obtain ⟨e', ha', heq⟩ := ha.unlined hteq hveq
    exact ⟨e', .assign ht hequal hv ha', heq⟩
  | joined => exact fun hfree => absurd (operator_operation _ _ _ _) (hfree _ (Expr.mem_parts _))
  | led => exact fun hfree => absurd .unary (hfree _ (Expr.mem_parts _))
  | @call ts _ callee parts opening closing _ _ _ _ hle _ ih ihp =>
    intro hfree us hus
    obtain ⟨hcallee, hargs⟩ := List.forall_mem_append.1 (List.forall_mem_cons.1 hfree).2
    obtain ⟨vs, ws, rfl, hvs, hws⟩ := hus.append
    obtain ⟨o, xs, c, rfl, ho, hxs, hc⟩ := hws.inParens
    obtain ⟨callee', hcall, hcalleq⟩ := ih hcallee vs hvs
    have hreread : ∀ e ∈ parts.map (·.2), Rereads .assignment e := by
      intro e he
      obtain ⟨part, hpart, rfl⟩ := List.mem_map.1 he
      exact ihp part hpart (partsList_forall hargs _ he)
    rw [piecesList_eq_map] at hxs
    obtain ⟨parts', hparts, hlist, hmap⟩ := listed_reread hreread hxs
    have hlength : parts'.length ≤ 254 := by
      have heq := congrArg List.length hmap
      simp only [List.length_map] at heq
      rwa [heq]
    refine ⟨_, .call hcall ho hparts hlist hlength hc, ?_⟩
    refine congrArg₂ (Expr.call 0) hcalleq ?_
    rw [unlinedList_eq_map, unlinedList_eq_map, ← hmap, List.map_map]
    rfl
  | property _ _ _ hsel ih =>
    intro hfree us hus
    rw [hsel.pieces] at hus
    obtain ⟨vs, ws, rfl, hvs, hws⟩ := hus.append
    obtain ⟨dot, xs, rfl, hdot, hxs⟩ := hws.symbol
    obtain ⟨name, ys, rfl, hname, hlexeme, hys⟩ := hxs.name
    obtain rfl := hys.nil
    obtain ⟨object', hobject, hoeq⟩ := ih (hsel.forall_parts (fun _ _ => nofun) hfree) vs hvs
    obtain ⟨e', hsel', heq⟩ := hsel.unlined (ident_unlined hlexeme) hoeq
    exact ⟨e', .property hobject hdot hname hsel', heq⟩
  | atom ha => exact fun _ => ha.reread
  | group _ _ _ ih =>
    intro hfree us hus
    obtain ⟨o, vs, c, rfl, ho, hvs, hc⟩ := hus.inParens
    obtain ⟨e', hphrase, heq⟩ := ih (List.forall_mem_cons.1 hfree).2 vs hvs
    exact ⟨.group e', .group ho hphrase hc, congrArg Expr.group heq⟩

end ScriptLang

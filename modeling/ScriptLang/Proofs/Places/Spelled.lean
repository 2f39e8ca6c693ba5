import ScriptLang.Proofs.Places.Nodes
import ScriptLang.Proofs.Tree.Regular

/-!
# Nodes of source texts

In a program that was read from a source text no identifier is one of the two reserved names.  So the reserved words
are spelled as such, and no assignment is to a reserved name.

* `Node.Spelled` — the property of a node;
* `nodes_relabel` — it does not depend on lines and identities;
* `AreDeclarations.spelled` — the nodes of rightly spelled tokens;
* `Program.spelled_nodes` — the nodes of a program with its numbers.
-/

namespace ScriptLang

variable {ι κ : Type}

/-- The name at a node is spelled as the node says: the reserved words as such, and identifiers are not reserved. -/
def Node.Spelled : Node ι → Prop
  | .read .identifier use => use.Plain
  | .read .this use => use.text = "this"
  | .read .super use => use.text = "super"
  | .assign target => target.Plain
  | .return _ => True

/-! ### Lines and identities -/

section Relabel

variable (f : Nat → Nat) (g : ι → κ)

/-- The same node on another line, with another identity. -/
def Node.relabel : Node ι → Node κ
  | .read kind use => .read kind (use.relabel f g)
  | .assign target => .assign (target.relabel f g)
  | .return line => .return (f line)

lemma Node.spelled_relabel {n : Node ι} : (n.relabel f g).Spelled ↔ n.Spelled := by
  obtain ⟨kind, use⟩ | target | line := n
  · cases kind <;> exact Iff.rfl
  · exact Iff.rfl
  · exact Iff.rfl

mutual

theorem Expr.nodes_relabel : ∀ e : Expr ι, (e.relabel f g).nodes = e.nodes.map (Node.relabel f g)
  | .literal _ | .name _ _ | .superGet _ _ => rfl
  | .assign target e => by
    rw [Expr.relabel, Expr.nodes, Expr.nodes, Expr.nodes_relabel e, List.map_append]
    rfl
  | .unary _ _ e | .group e | .get e _ => by
    rw [Expr.relabel, Expr.nodes, Expr.nodes, Expr.nodes_relabel e]
  | .binary _ _ e e' | .logical _ _ e e' | .set e _ e' => by
    rw [Expr.relabel, Expr.nodes, Expr.nodes, Expr.nodes_relabel e, Expr.nodes_relabel e', List.map_append]
  | .call _ e es => by
    rw [Expr.relabel, Expr.nodes, Expr.nodes, Expr.nodes_relabel e, Expr.nodes_relabelList es, List.map_append]

theorem Expr.nodes_relabelList : ∀ es : List (Expr ι),
    Expr.nodesList (Expr.relabelList f g es) = (Expr.nodesList es).map (Node.relabel f g)
  | [] => rfl
  | e :: es => by
    rw [Expr.relabelList, Expr.nodesList, Expr.nodesList, Expr.nodes_relabel e, Expr.nodes_relabelList es,
      List.map_append]

end

lemma Expr.nodes_relabelOption (e : Option (Expr ι)) :
    Expr.nodesOption (e.map fun e => e.relabel f g) = (Expr.nodesOption e).map (Node.relabel f g) := by
  cases e with
  | none => rfl
  | some e => exact Expr.nodes_relabel f g e

/-- The nodes without their places. -/
def bareNodes (ns : List (Node ι × Place ι)) : List (Node ι) := ns.map (·.1)

@[simp] lemma bareNodes_append (ns ms : List (Node ι × Place ι)) : bareNodes (ns ++ ms) = bareNodes ns ++ bareNodes ms :=
  List.map_append

@[simp] lemma bareNodes_nodesAt (p : Place ι) (ns : List (Node ι)) : bareNodes (nodesAt p ns) = ns :=
  map_fst_nodesAt p ns

mutual

theorem Stmt.nodes_relabel (p : Place ι) (q : Place κ) : ∀ s : Stmt ι,
    bareNodes ((s.relabel f g).nodes q) = (bareNodes (s.nodes p)).map (Node.relabel f g)
  | .expr e | .print e => by
    simp only [Stmt.relabel, Stmt.nodes, bareNodes_nodesAt, Expr.nodes_relabel]
  | .letVar _ value => by
    simp only [Stmt.relabel, Stmt.nodes, bareNodes_nodesAt, Expr.nodes_relabelOption]
  | .constVar _ value => by
    simp only [Stmt.relabel, Stmt.nodes, bareNodes_nodesAt, Expr.nodes_relabel]
  | .block body => by
    rw [Stmt.relabel, Stmt.nodes, Stmt.nodes, Stmt.nodes_relabelList _ _ body]
  | .ifThen c s | .while c s => by
    simp only [Stmt.relabel, Stmt.nodes, bareNodes_append, bareNodes_nodesAt, Expr.nodes_relabel, List.map_append,
      Stmt.nodes_relabel p q s]
  | .ifElse c yes no => by
    simp only [Stmt.relabel, Stmt.nodes, bareNodes_append, bareNodes_nodesAt, Expr.nodes_relabel, List.map_append,
      Stmt.nodes_relabel p q yes, Stmt.nodes_relabel (p.behind yes.scopeNames) _ no]
  | .function decl => by
    rw [Stmt.relabel, Stmt.nodes, Stmt.nodes]
    exact FunctionDecl.nodes_relabel _ _ _ _ decl
  | .return _ value => by
    simp only [Stmt.relabel, Stmt.nodes, bareNodes_nodesAt, Expr.nodes_relabelOption]
    rfl
  | .classDecl name parent methods statics => by
    rw [Stmt.relabel, Stmt.nodes, Stmt.nodes, bareNodes_append, bareNodes_append, bareNodes_append, bareNodes_append,
      bareNodes_nodesAt, bareNodes_nodesAt, List.map_append, List.map_append,
      FunctionDecl.nodes_relabelMethods _ parent.isSome (p.behind [name.text]) _ methods,
      FunctionDecl.nodes_relabelStatics (p.behind [name.text]) _ statics]
    cases parent <;> rfl

theorem Stmt.nodes_relabelList (p : Place ι) (q : Place κ) : ∀ ss : List (Stmt ι),
    bareNodes (Stmt.nodesList q (Stmt.relabelList f g ss)) = (bareNodes (Stmt.nodesList p ss)).map (Node.relabel f g)
  | [] => rfl
  | s :: ss => by
    rw [Stmt.relabelList, Stmt.nodesList, Stmt.nodesList, bareNodes_append, bareNodes_append, List.map_append,
      Stmt.nodes_relabel p q s, Stmt.nodes_relabelList (p.behind s.scopeNames) _ ss]

theorem FunctionDecl.nodes_relabel (kind : ScopeKind ι) (kind' : ScopeKind κ) (p : Place ι) (q : Place κ) :
    ∀ d : FunctionDecl (Stmt ι), bareNodes (FunctionDecl.nodes kind' q (FunctionDecl.relabel f g d)) =
      (bareNodes (FunctionDecl.nodes kind p d)).map (Node.relabel f g)
  | ⟨_, _, body⟩ => by
    rw [FunctionDecl.relabel, FunctionDecl.nodes, FunctionDecl.nodes, Stmt.nodes_relabelList _ _ body]

theorem FunctionDecl.nodes_relabelMethods (inSubclass inSubclass' : Bool) (p : Place ι) (q : Place κ) :
    ∀ ds : List (FunctionDecl (Stmt ι)),
      bareNodes (FunctionDecl.methodNodes inSubclass q (FunctionDecl.relabelList f g ds)) =
        (bareNodes (FunctionDecl.methodNodes inSubclass' p ds)).map (Node.relabel f g)
  | [] => rfl
  | d :: ds => by
    rw [FunctionDecl.relabelList, FunctionDecl.methodNodes, FunctionDecl.methodNodes, bareNodes_append,
      bareNodes_append, List.map_append, FunctionDecl.nodes_relabel _ _ _ _ d,
      FunctionDecl.nodes_relabelMethods inSubclass inSubclass' p q ds]

theorem FunctionDecl.nodes_relabelStatics (p : Place ι) (q : Place κ) : ∀ ds : List (FunctionDecl (Stmt ι)),
    bareNodes (FunctionDecl.staticNodes q (FunctionDecl.relabelList f g ds)) =
      (bareNodes (FunctionDecl.staticNodes p ds)).map (Node.relabel f g)
  | [] => rfl
  | d :: ds => by
    rw [FunctionDecl.relabelList, FunctionDecl.staticNodes, FunctionDecl.staticNodes, bareNodes_append,
      bareNodes_append, List.map_append, FunctionDecl.nodes_relabel .static _ p _ d,
      FunctionDecl.nodes_relabelStatics p q ds]

end

end Relabel

/-! ### Sentences have nodes of this kind -/

section Sentences

open Grammar

variable {ts : List Token} {t : Token}

/-- All nodes of an expression are spelled as they say. -/
def Expr.Spelled (e : Expr ι) : Prop := ∀ n ∈ e.nodes, n.Spelled

/-- All nodes of an expression that may be missing are spelled as they say. -/
def Expr.SpelledOption (e : Option (Expr ι)) : Prop := ∀ n ∈ Expr.nodesOption e, n.Spelled

/-- All nodes of a statement are spelled as they say, wherever it stands. -/
def Stmt.Spelled (s : Stmt ι) : Prop := ∀ p, ∀ n ∈ s.nodes p, n.1.Spelled

/-- All nodes of several statements are spelled as they say. -/
def Stmt.SpelledList (ss : List (Stmt ι)) : Prop := ∀ p, ∀ n ∈ Stmt.nodesList p ss, n.1.Spelled

/-- All nodes of a function are spelled as they say. -/
def FunctionDecl.Spelled (d : FunctionDecl (Stmt ι)) : Prop :=
  ∀ kind p, ∀ n ∈ FunctionDecl.nodes kind p d, n.1.Spelled

lemma Atom.spelled {e : Expr Unit} (h : Atom t e) (hs : t.Spelled) : e.Spelled := by
  cases h with
  | identifier hk => exact List.forall_mem_singleton.2 (plain_of_spelled hs hk)
  | this hk | super hk =>
    unfold Token.Spelled at hs
    rw [hk] at hs
    exact List.forall_mem_singleton.2 (hs nofun)
  | _ => exact List.forall_mem_nil _

lemma Selects.spelled {name : Ident} {object e : Expr Unit} (h : Selects name object e) (ho : object.Spelled) :
    e.Spelled := by
  cases h <;> exact ho

lemma Assigns.spelled {target value e : Expr Unit} (h : Assigns target value e) (ht : target.Spelled)
    (hv : value.Spelled) : e.Spelled := by
  cases h with
  | «variable» =>
    have htarget := List.forall_mem_singleton.1 ht
    exact List.forall_mem_append.2 ⟨hv, List.forall_mem_singleton.2 htarget⟩
  | property | superProperty => exact List.forall_mem_append.2 ⟨ht, hv⟩

lemma nodesList_spelled {parts : List (List Token × Expr Unit)} (h : ∀ part ∈ parts, part.2.Spelled) :
    ∀ n ∈ Expr.nodesList (parts.map (·.2)), n.Spelled := by
  induction parts with
  | nil => exact List.forall_mem_nil _
  | cons part parts ih =>
    obtain ⟨hp, hps⟩ := List.forall_mem_cons.1 h
    exact List.forall_mem_append.2 ⟨hp, ih hps⟩

lemma Operator.spelled_apply (op : Operator) (line : Nat) {left right : Expr Unit} (hl : left.Spelled)
    (hr : right.Spelled) : (op.apply line left right).Spelled := by
  cases op <;> exact List.forall_mem_append.2 ⟨hl, hr⟩

lemma Phrase.spelled {s : Stratum} {e : Expr Unit} (h : Phrase s ts e) : AllSpelled ts → e.Spelled := by
  induction h with
  | ofOr _ ih | ofOperand _ ih | ofCall _ ih | ofPrimary _ ih => exact ih
  | assign _ _ _ ha iht ihv =>
    intro hs
    obtain ⟨ht, hs⟩ := allSpelled_append.1 hs
    exact ha.spelled (iht ht) (ihv (allSpelled_cons.1 hs).2)
  | joined _ _ _ ihl ihr =>
    intro hs
    obtain ⟨hl, hs⟩ := allSpelled_append.1 hs
    exact Operator.spelled_apply _ _ (ihl hl) (ihr (allSpelled_cons.1 hs).2)
  | led _ _ ih => exact fun hs => ih (allSpelled_cons.1 hs).2
  | call _ _ _ hlist _ _ ih ihp =>
    intro hs
    obtain ⟨hc, hs⟩ := allSpelled_append.1 hs
    obtain ⟨hargs, -⟩ := allSpelled_append.1 (allSpelled_cons.1 hs).2
    have hparts := nodesList_spelled fun part hpart => ihp part hpart (hlist.spelled hargs part hpart)
    exact List.forall_mem_append.2 ⟨ih hc, hparts⟩
  | property _ _ _ hsel ih => exact fun hs => hsel.spelled (ih (allSpelled_append.1 hs).1)
  | atom ha => exact fun hs => ha.spelled (allSpelled_cons.1 hs).1
  | group _ _ _ ih => exact fun hs => ih (allSpelled_append.1 (allSpelled_cons.1 hs).2).1

/-! #### Statements of spelled parts -/

lemma nodesAt_spelled {p : Place ι} {ns : List (Node ι)} (h : ∀ n ∈ ns, n.Spelled) :
    ∀ n ∈ nodesAt p ns, n.1.Spelled := by
  intro n hn
  obtain ⟨m, hm, rfl⟩ := List.mem_map.1 hn
  exact h m hm

lemma Stmt.Spelled.expr {e : Expr ι} (h : e.Spelled) : (Stmt.expr e).Spelled := fun _ => nodesAt_spelled h

lemma Stmt.Spelled.while {c : Expr ι} {s : Stmt ι} (hc : c.Spelled) (hs : s.Spelled) : (Stmt.while c s).Spelled :=
  fun p => List.forall_mem_append.2 ⟨nodesAt_spelled hc, hs p⟩

lemma Stmt.SpelledList.nil : Stmt.SpelledList ([] : List (Stmt ι)) := fun _ => List.forall_mem_nil _

lemma Stmt.SpelledList.cons {s : Stmt ι} {ss : List (Stmt ι)} (hs : s.Spelled) (hss : Stmt.SpelledList ss) :
    Stmt.SpelledList (s :: ss) := fun p => List.forall_mem_append.2 ⟨hs p, hss _⟩

lemma Stmt.Spelled.block {ss : List (Stmt ι)} (h : Stmt.SpelledList ss) : (Stmt.block ss).Spelled := fun _ => h _

namespace Grammar

lemma IsExpression.spelled {e : Expr Unit} (h : IsExpression ts e) (hs : AllSpelled ts) : e.Spelled :=
  (isExpression_iff.1 h).spelled hs

lemma IsCondition.spelled {e : Expr Unit} (h : IsCondition ts e) (hs : AllSpelled ts) : e.Spelled := by
  cases h with
  | mk _ he _ => exact he.spelled (allSpelled_append.1 (allSpelled_cons.1 hs).2).1

lemma IsOptional.spelled {o : Option (Expr Unit)} (h : IsOptional ts o) (hs : AllSpelled ts) :
    Expr.SpelledOption o := by
  cases h with
  | none => exact List.forall_mem_nil _
  | some he => exact he.spelled hs

lemma IsLet.spelled {s : Stmt Unit} (h : IsLet ts s) (hs : AllSpelled ts) : s.Spelled := by
  cases h with
  | plain => exact fun p => List.forall_mem_nil _
  | initialized _ _ _ he _ =>
    simp only [allSpelled_cons, allSpelled_append] at hs
    exact fun p => nodesAt_spelled (he.spelled hs.2.2.2.1)

lemma IsInitializer.spelled {o : Option (Stmt Unit)} (h : IsInitializer ts o) (hs : AllSpelled ts) :
    ∀ s ∈ o, s.Spelled := by
  cases h with
  | none => exact nofun
  | letVar hl =>
    rintro s ⟨⟩
    exact hl.spelled hs
  | expr he _ =>
    rintro s ⟨⟩
    exact .expr (he.spelled (allSpelled_append.1 hs).1)

lemma IsHeading.spelled {name : Ident} {parent : Option (Occurrence Unit)} (h : IsHeading ts name parent)
    (hs : AllSpelled ts) : ∀ n ∈ parent.toList.map (Node.read .identifier), n.Spelled := by
  cases h with
  | plain => exact List.forall_mem_nil _
  | extending _ _ hparent =>
    simp only [allSpelled_cons] at hs
    exact List.forall_mem_singleton.2 (plain_of_spelled hs.2.2.1 hparent)

lemma LoopTest.spelled {o : Option (Expr Unit)} {e : Expr Unit} (h : LoopTest o e) (ho : Expr.SpelledOption o) :
    e.Spelled := by
  cases h with
  | always => exact List.forall_mem_nil _
  | test => exact ho

lemma LoopBody.spelled {o : Option (Expr Unit)} {s body : Stmt Unit} (h : LoopBody s o body)
    (ho : Expr.SpelledOption o) (hs : s.Spelled) : body.Spelled := by
  cases h with
  | plain => exact hs
  | increment => exact .block (.cons hs (.cons (.expr ho) .nil))

lemma LoopFrame.spelled {o : Option (Stmt Unit)} {loop tree : Stmt Unit} (h : LoopFrame loop o tree)
    (ho : ∀ s ∈ o, s.Spelled) (hl : loop.Spelled) : tree.Spelled := by
  cases h with
  | plain => exact hl
  | initialized => exact .block (.cons (ho _ rfl) (.cons hl .nil))

mutual

theorem IsStatement.spelled : ∀ {d : Bool} {ts : List Token} {s : Stmt Unit}, IsStatement d ts s →
    AllSpelled ts → s.Spelled
  | _, _, _, .expr he _, hs => .expr (he.spelled (allSpelled_append.1 hs).1)
  | _, _, _, .print _ he _, hs => fun _ =>
    nodesAt_spelled (he.spelled (allSpelled_append.1 (allSpelled_cons.1 hs).2).1)
  | _, _, _, .return _ ho _, hs => fun _ =>
    nodesAt_spelled (List.forall_mem_cons.2
      ⟨trivial, ho.spelled (allSpelled_append.1 (allSpelled_cons.1 hs).2).1⟩)
  | _, _, _, .block _ hss _, hs => .block (hss.spelled (allSpelled_append.1 (allSpelled_cons.1 hs).2).1)
  | _, _, _, .ifThen _ hc hy, hs => fun p => by
    obtain ⟨hsc, hsy⟩ := allSpelled_append.1 (allSpelled_cons.1 hs).2
    exact List.forall_mem_append.2 ⟨nodesAt_spelled (hc.spelled hsc), hy.spelled hsy p⟩
  | _, _, _, .ifElse _ hc hy _ hn, hs => fun p => by
    obtain ⟨hsc, hs⟩ := allSpelled_append.1 (allSpelled_cons.1 hs).2
    obtain ⟨hsy, hs⟩ := allSpelled_append.1 hs
    refine List.forall_mem_append.2 ⟨nodesAt_spelled (hc.spelled hsc), ?_⟩
    exact List.forall_mem_append.2 ⟨hy.spelled hsy p, hn.spelled (allSpelled_cons.1 hs).2 _⟩
  | _, _, _, .while _ hc hb, hs => by
    obtain ⟨hsc, hsb⟩ := allSpelled_append.1 (allSpelled_cons.1 hs).2
    exact .while (hc.spelled hsc) (hb.spelled hsb)
  | _, _, _, .for _ _ hi hc _ hn _ hb ht hbody hf, hs => by
    simp only [allSpelled_cons, allSpelled_append] at hs
    obtain ⟨-, -, hsi, hsc, -, hsn, -, hsb⟩ := hs
    have hloop := hbody.spelled (hn.spelled hsn) (hb.spelled hsb)
    exact hf.spelled (hi.spelled hsi) (.while (ht.spelled (hc.spelled hsc)) hloop)

theorem IsDeclaration.spelled : ∀ {d : Bool} {ts : List Token} {s : Stmt Unit}, IsDeclaration d ts s →
    AllSpelled ts → s.Spelled
  | _, _, _, .statement h, hs => h.spelled hs
  | _, _, _, .letVar hl, hs => hl.spelled hs
  | _, _, _, .constVar _ _ _ he _, hs => fun p => by
    simp only [allSpelled_cons, allSpelled_append] at hs
    exact nodesAt_spelled (he.spelled hs.2.2.2.1)
  | _, _, _, .function _ hf, hs => fun p => hf.spelled (allSpelled_cons.1 hs).2 .function _
  | _, _, _, .classDecl _ hh _ hm _, hs => fun p => by
    simp only [allSpelled_cons, allSpelled_append] at hs
    obtain ⟨hmethods, hstatics⟩ := hm.spelled hs.2.2.2.1
    exact List.forall_mem_append.2 ⟨nodesAt_spelled (hh.spelled hs.2.1),
      List.forall_mem_append.2 ⟨hmethods _ _, hstatics _⟩⟩

/-- **The nodes of rightly spelled declarations are spelled as they say.** -/
theorem AreDeclarations.spelled : ∀ {ts : List Token} {ss : List (Stmt Unit)}, AreDeclarations ts ss →
    AllSpelled ts → Stmt.SpelledList ss
  | _, _, .nil, _ => .nil
  | _, _, .cons h hss, hs => by
    obtain ⟨hs, hs'⟩ := allSpelled_append.1 hs
    exact .cons (h.spelled hs) (hss.spelled hs')

theorem IsFunction.spelled : ∀ {ts : List Token} {d : Method}, IsFunction ts d → AllSpelled ts →
    FunctionDecl.Spelled d
  | _, _, .mk _ _ hb _, hs => fun kind p => by
    simp only [allSpelled_cons, allSpelled_append] at hs
    exact hb.spelled hs.2.2.1 _

theorem AreMembers.spelled : ∀ {ts : List Token} {methods statics : List Method}, AreMembers ts methods statics →
    AllSpelled ts → (∀ inSubclass p, ∀ n ∈ FunctionDecl.methodNodes inSubclass p methods, n.1.Spelled) ∧
      ∀ p, ∀ n ∈ FunctionDecl.staticNodes p statics, n.1.Spelled
  | _, _, _, .nil, _ => ⟨fun _ _ => List.forall_mem_nil _, fun _ => List.forall_mem_nil _⟩
  | _, _, _, .method hf hm, hs => by
    obtain ⟨hsf, hsm⟩ := allSpelled_append.1 hs
    obtain ⟨hmethods, hstatics⟩ := hm.spelled hsm
    exact ⟨fun inSubclass p => List.forall_mem_append.2 ⟨hf.spelled hsf _ _, hmethods inSubclass p⟩, hstatics⟩
  | _, _, _, .static _ hf hm, hs => by
    obtain ⟨hsf, hsm⟩ := allSpelled_append.1 (allSpelled_cons.1 hs).2
    obtain ⟨hmethods, hstatics⟩ := hm.spelled hsm
    exact ⟨hmethods, fun p => List.forall_mem_append.2 ⟨hf.spelled hsf _ _, hstatics p⟩⟩

end

end Grammar

/-- **The nodes of a source text are spelled as they say**, also when its uses of names have numbers. -/
theorem Program.spelled_nodes {tokens : List Token} {tree : Program Unit} (first : OccurrenceId)
    (hspelled : AllSpelled tokens) (hparse : Program.parse tokens = .ok tree) :
    ∀ n ∈ Program.nodes (tree.number first).1, n.1.Spelled := by
  intro n hn
  obtain ⟨hforget, -⟩ := Stmt.numberList_spec first tree
  have htree : Stmt.SpelledList tree :=
    (parse_ok_iff.1 hparse).spelled fun t ht => hspelled t (List.takeWhile_subset _ ht)
  have hbare := Stmt.nodes_relabelList id (fun _ => ()) .global .global (Stmt.numberList tree first).1
  have hmem : n.1.relabel id (fun _ => ()) ∈
      bareNodes (Stmt.nodesList .global (Stmt.relabelList id (fun _ => ()) (Stmt.numberList tree first).1)) := by
    rw [hbare]
    exact List.mem_map_of_mem (List.mem_map_of_mem hn)
  rw [hforget] at hmem
  obtain ⟨m, hm, heq⟩ := List.mem_map.1 hmem
  rw [← Node.spelled_relabel id fun _ => (), ← heq]
  exact htree _ m hm

end Sentences

end ScriptLang

import ScriptLang.Proofs.Frames.Operations

/-!
# Searching and counting steps

A name is found by searching the frames from the inside out, or by going a known number of steps out.  Where the
steps are those of the search, both ways read and assign the same.

* `Frames.FindsAt` — where a search ends, and after how many steps;
* `getElem?_chain`, `getLast?_chain`, `ancestor_mem_chain` — going steps out stays in the row of frames that is
  searched, and ends with its last frame;
* `Frames.FindsAt.get_eq`, `Frames.FindsAt.assign_eq` — both ways agree;
* `Reassigned` — frames in which one variable has another value, and what is read in them;
* `addressed_eq_searched` — the theorem.
-/

namespace ScriptLang

open Frames

variable {fs fs' : Frames} {f f' : Frame} {i j k : FrameId} {name other : String} {v : Value} {d hops : Nat}

/-- The search for a name from the frame `i` ends in the frame `j`, after `d` steps out: this frame binds the name, and
after fewer steps none does. -/
structure Frames.FindsAt (fs : Frames) (i : FrameId) (name : String) (d : Nat) (j : FrameId) : Prop where
  ancestor : fs.ancestor d i = j
  binds : (fs.frame j).binds name = true
  first : ∀ k < d, (fs.frame (fs.ancestor k i)).binds name = false

/-! ### Steps out -/

/-- The frame a number of steps out is the one at that place in the row. -/
lemma getElem?_chain (hd : d < (fs.chain i).length) : (fs.chain i)[d]? = some (fs.ancestor d i) := by
  induction d generalizing i with
  | zero =>
    rcases hp : fs.parent? i with _ | p
    · rw [chain_of_parent?_none hp]
      rfl
    · rw [chain_of_parent? hp]
      rfl
  | succ d ih =>
    rcases hp : fs.parent? i with _ | p
    · rw [chain_of_parent?_none hp] at hd
      exact absurd hd (Nat.not_lt.2 (Nat.succ_le_succ (Nat.zero_le d)))
    · rw [chain_of_parent? hp] at hd ⊢
      rw [List.getElem?_cons_succ, Frames.ancestor, hp]
      exact ih (Nat.lt_of_succ_lt_succ hd)

lemma chain_ne_nil (fs : Frames) (i : FrameId) : fs.chain i ≠ [] := by
  rcases hp : fs.parent? i with _ | p
  · rw [chain_of_parent?_none hp]
    exact List.cons_ne_nil _ _
  · rw [chain_of_parent? hp]
    exact List.cons_ne_nil _ _

/-- **Beyond the outermost frame steps end there.** -/
lemma getLast?_chain (hd : (fs.chain i).length ≤ d + 1) :
    (fs.chain i).getLast? = some (fs.ancestor d i) ∧ fs.parent? (fs.ancestor d i) = none := by
  induction d generalizing i with
  | zero =>
    rcases hp : fs.parent? i with _ | p
    · rw [chain_of_parent?_none hp]
      exact ⟨rfl, hp⟩
    · rw [chain_of_parent? hp, List.length_cons] at hd
      exact absurd (List.length_eq_zero_iff.1 (by omega)) (chain_ne_nil fs p)
  | succ d ih =>
    rcases hp : fs.parent? i with _ | p
    · rw [chain_of_parent?_none hp, Frames.ancestor, hp]
      exact ⟨rfl, hp⟩
    · rw [chain_of_parent? hp, List.length_cons] at hd
      obtain ⟨hlast, hroot⟩ := ih (Nat.le_of_succ_le_succ hd)
      rw [chain_of_parent? hp, Frames.ancestor, hp, List.getLast?_cons, hlast]
      exact ⟨rfl, hroot⟩

lemma ancestor_mem_chain (fs : Frames) (d : Nat) (i : FrameId) : fs.ancestor d i ∈ fs.chain i := by
  rcases Nat.lt_or_ge d (fs.chain i).length with hd | hd
  · exact List.mem_of_getElem? (getElem?_chain hd)
  · exact List.mem_of_getLast? (getLast?_chain (Nat.le_succ_of_le hd)).1

/-- The search ends in the row of frames: beyond the outermost one no step leads to another frame. -/
lemma Frames.FindsAt.lt_length (h : fs.FindsAt i name d j) : d < (fs.chain i).length := by
  by_contra hd
  obtain ⟨k, hk⟩ : ∃ k, (fs.chain i).length = k + 1 :=
    Nat.exists_eq_succ_of_ne_zero (mt List.length_eq_zero_iff.1 (chain_ne_nil fs i))
  obtain ⟨hlast, -⟩ := getLast?_chain (Nat.le_succ_of_le (Nat.le_of_not_lt hd))
  obtain ⟨hlast', -⟩ := getLast?_chain (Nat.le_of_eq hk)
  have hfree := h.first k (by omega)
  rw [← Option.some.inj (hlast.symm.trans hlast'), h.ancestor, h.binds] at hfree
  cases hfree

/-! ### Reading and assigning -/

lemma get?_of_not_binds (h : f.binds name = false) : f.get? name = none := by
  rw [Frame.get?, Option.or_eq_none_iff]
  exact ⟨binds_eq_false h false, binds_eq_false h true⟩

lemma assign_of_not_binds (h : f.binds name = false) : f.assign name v = .error (.undefined name) := by
  obtain ⟨hm, hc⟩ := Bool.or_eq_false_iff.1 h
  unfold Frame.assign
  rw [hc, hm]
  rfl

/-- The row of frames in front of the one in which the search ends. -/
lemma Frames.FindsAt.split (h : fs.FindsAt i name d j) : ∃ before after, fs.chain i = before ++ j :: after ∧
    ∀ p ∈ before, (fs.frame p).binds name = false := by
  have hd := h.lt_length
  have hj : (fs.chain i)[d] = j := by
    rw [← h.ancestor]
    exact List.getElem_eq_iff hd |>.2 (getElem?_chain hd)
  refine ⟨(fs.chain i).take d, (fs.chain i).drop (d + 1), ?_, fun p hp => ?_⟩
  · rw [← hj, ← List.drop_eq_getElem_cons hd, List.take_append_drop]
  · obtain ⟨k, hk⟩ := List.mem_iff_getElem?.1 hp
    rw [List.getElem?_take] at hk
    split at hk
    · next hlt =>
      rw [getElem?_chain (Nat.lt_trans hlt hd)] at hk
      exact Option.some.inj hk ▸ h.first k hlt
    · cases hk

lemma Frames.FindsAt.holder? (h : fs.FindsAt i name d j) : fs.holder? i name = some j := by
  obtain ⟨before, after, hchain, hbefore⟩ := h.split
  have hnone : before.find? (fun p => (fs.frame p).binds name) = none :=
    List.find?_eq_none.2 fun p hp => by rw [hbefore p hp]; exact Bool.false_ne_true
  rw [Frames.holder?, hchain, List.find?_append, hnone, Option.none_or, List.find?_cons, h.binds]

lemma Frames.FindsAt.get (h : fs.FindsAt i name d j) (hv : (fs.frame j).get? name = some v) : fs.get i name = .ok v := by
  obtain ⟨before, after, hchain, hbefore⟩ := h.split
  have hnone : (before.findSome? fun p => (fs.frame p).get? name) = none :=
    List.findSome?_eq_none_iff.2 fun p hp => get?_of_not_binds (hbefore p hp)
  rw [Frames.get, hchain, List.findSome?_append, hnone, Option.none_or, List.findSome?_cons, hv]

/-- **Reading** from the frame in which the search ends. -/
lemma Frames.FindsAt.get_eq (h : fs.FindsAt i name d j) : fs.get i name = fs.getAt i d name := by
  obtain ⟨w, hw⟩ := get?_of_binds h.binds
  rw [h.get hw, getAt, h.ancestor, hw]

/-- **Assigning** in the frame in which the search ends. -/
lemma Frames.FindsAt.assign_eq (h : fs.FindsAt i name d j) (v : Value) :
    Frames.assign i name v fs = Frames.assignAt i d name v fs := by
  rw [Frames.assign, Frames.assignAt, h.holder?, h.ancestor]

/-- A search ends somewhere, or no frame of the row binds the name. -/
lemma findsAt_or_not (fs : Frames) (i : FrameId) (name : String) :
    (∃ d j, fs.FindsAt i name d j) ∨ ∀ j ∈ fs.chain i, (fs.frame j).binds name = false := by
  rcases h : (fs.chain i).find? (fun p => (fs.frame p).binds name) with _ | j
  · exact .inr fun j hj => Bool.eq_false_iff.2 (List.find?_eq_none.1 h j hj)
  · obtain ⟨hb, d, hd, hj, hfirst⟩ := List.find?_eq_some_iff_getElem.1 h
    have hsteps : ∀ k (hk : k < (fs.chain i).length), (fs.chain i)[k] = fs.ancestor k i := fun k hk =>
      List.getElem_eq_iff hk |>.2 (getElem?_chain hk)
    refine .inl ⟨d, j, ⟨(hsteps d hd).symm.trans hj, hb, fun k hk => ?_⟩⟩
    rw [← hsteps k (Nat.lt_trans hk hd)]
    simpa using hfirst k hk

section Unbound

variable (h : ∀ j ∈ fs.chain i, (fs.frame j).binds name = false)

include h

lemma get_of_unbound : fs.get i name = .error (.undefined name) := by
  have hnone : ((fs.chain i).findSome? fun j => (fs.frame j).get? name) = none :=
    List.findSome?_eq_none_iff.2 fun j hj => get?_of_not_binds (h j hj)
  rw [Frames.get, hnone]

lemma assign_of_unbound : Frames.assign i name v fs = .error (.undefined name) fs := by
  have hnone : fs.holder? i name = none :=
    List.find?_eq_none.2 fun j hj => by rw [h j hj]; exact Bool.false_ne_true
  rw [Frames.assign, hnone]

lemma getAt_of_unbound : fs.getAt i hops name = .error (.undefined name) := by
  rw [getAt, get?_of_not_binds (h _ (ancestor_mem_chain fs hops i))]

lemma assignAt_of_unbound : Frames.assignAt i hops name v fs = .error (.undefined name) fs := by
  rw [Frames.assignAt, Frames.update, assign_of_not_binds (h _ (ancestor_mem_chain fs hops i))]

end Unbound

/-! ### After an assignment -/

/-- The variable of a frame has been given a value: no frame has gained or lost a name, and all other names have what
they had. -/
structure Reassigned (j : FrameId) (name : String) (v : Value) (fs fs' : Frames) : Prop where
  writes : Writes ⟨j, false, name⟩ v fs fs'
  binds : ∀ p other, (fs'.frame p).binds other = (fs.frame p).binds other
  get? : ∀ p other, (fs'.frame p).get? other = if p = j ∧ other = name then some v else (fs.frame p).get? other

lemma Frame.PutEntry.binds_eq (h : f.PutEntry false name v f') (hfilled : (f.entry false name).isSome) :
    f'.binds other = f.binds other := by
  have hsome : ∀ c, (f'.entry c other).isSome = (f.entry c other).isSome := fun c => by
    rw [h.entry]
    split
    · next heq => rw [heq.1, ← heq.2, hfilled]; rfl
    · rfl
  exact congrArg₂ or (hsome false) (hsome true)

lemma Frame.PutEntry.get?_eq (h : f.PutEntry false name v f') (hconst : f.entry true name = none) :
    f'.get? other = if other = name then some v else f.get? other := by
  have hentries : ∀ g : Frame, g.get? other = (g.entry false other).or (g.entry true other) := fun _ => rfl
  rw [hentries, hentries, h.entry, h.entry]
  by_cases hother : other = name
  · subst hother
    simp [hconst]
  · simp [hother, Ne.symm hother]

lemma reassigned_update (hj : j < fs.size) (h : Frames.update j (fun f => f.assign name v) fs = .ok () fs') :
    Reassigned j name v fs fs' := by
  obtain ⟨f', hf, rfl⟩ := update_ok h
  obtain ⟨⟨hconst, hfilled⟩, hput⟩ := frame_assign hf
  refine ⟨writes_update hj hput, fun p other => ?_, fun p other => ?_⟩
  · rw [frame_set]
    split
    · next hp => rw [← hp.1, hput.binds_eq hfilled]
    · rfl
  · rw [frame_set]
    by_cases hp : p = j
    · subst hp
      rw [if_pos ⟨rfl, hj⟩, hput.get?_eq hconst]
      simp
    · rw [if_neg fun heq => hp heq.1.symm, if_neg fun heq => hp heq.1]

namespace Reassigned

variable (h : Reassigned j name v fs fs')

include h

lemma parent? (p : FrameId) : fs'.parent? p = fs.parent? p := by
  rw [Frames.parent?, Frames.parent?, h.writes.parent]

lemma chain (i : FrameId) : fs'.chain i = fs.chain i := chain_congr h.parent? i

lemma ancestor (hops : Nat) (i : FrameId) : fs'.ancestor hops i = fs.ancestor hops i := ancestor_congr h.parent? hops i

lemma findsAt : fs'.FindsAt k other d i ↔ fs.FindsAt k other d i := by
  constructor
  · rintro ⟨hancestor, hbinds, hfirst⟩
    simp only [h.ancestor, h.binds] at hancestor hbinds hfirst
    exact ⟨hancestor, hbinds, hfirst⟩
  · rintro ⟨hancestor, hbinds, hfirst⟩
    refine ⟨?_, ?_, ?_⟩
    · rwa [h.ancestor]
    · rwa [h.binds]
    · simpa only [h.ancestor, h.binds] using hfirst

/-- A search that ends in this frame finds the value. -/
lemma get_self (hk : fs.FindsAt k name d j) : fs'.get k name = .ok v :=
  (h.findsAt.2 hk).get (by rw [h.get?, if_pos ⟨rfl, rfl⟩])

/-- Any other search finds what it found before. -/
lemma get_other (hk : other = name → ∀ d, ¬ fs.FindsAt k name d j) : fs'.get k other = fs.get k other := by
  rcases findsAt_or_not fs k other with ⟨d, p, hp⟩ | hnone
  · obtain ⟨w, hw⟩ := get?_of_binds hp.binds
    have hne : ¬ (p = j ∧ other = name) := by
      rintro ⟨rfl, rfl⟩
      exact hk rfl d hp
    rw [hp.get hw, (h.findsAt.2 hp).get (v := w)]
    rw [h.get?, if_neg hne, hw]
  · have hnone' : ∀ p ∈ fs'.chain k, (fs'.frame p).binds other = false := by
      simpa only [h.chain, h.binds] using hnone
    rw [get_of_unbound hnone, get_of_unbound hnone']

lemma getAt_other (hk : other = name → fs.ancestor hops k ≠ j) : fs'.getAt k hops other = fs.getAt k hops other := by
  rw [getAt, getAt, h.ancestor, h.get?, if_neg fun heq => hk heq.2 heq.1]

end Reassigned

lemma Frames.FindsAt.lt_size (h : fs.FindsAt i name d j) : j < fs.size := lt_size_of_binds h.binds

lemma Frames.FindsAt.reassigned (h : fs.FindsAt i name d j) (hok : Frames.assign i name v fs = .ok () fs') :
    Reassigned j name v fs fs' := by
  rw [Frames.assign, h.holder?] at hok
  exact reassigned_update h.lt_size hok

/-- **Going a known number of steps out agrees with searching.**  If the search for a name ends after `d` steps, then
reading and assigning by searching are the same as reading and assigning `d` steps out.  If the assignment succeeds,
every search that ends in that frame finds the value, and everything else is read as before.  If no frame of the row
binds the name, all four fail.  Steps beyond the outermost frame end there. -/
theorem addressed_eq_searched (fs : Frames) (i : FrameId) (name : String) (v : Value) :
    (∀ d j, fs.FindsAt i name d j →
      fs.get i name = fs.getAt i d name ∧ Frames.assign i name v fs = Frames.assignAt i d name v fs ∧
        ∀ fs', Frames.assign i name v fs = .ok () fs' →
          (∀ k e, fs.FindsAt k name e j → fs'.get k name = .ok v) ∧
          (∀ slot, slot ≠ ⟨j, false, name⟩ → fs'.at slot = fs.at slot) ∧
          (∀ k other, (other = name → ∀ e, ¬ fs.FindsAt k name e j) → fs'.get k other = fs.get k other) ∧
          ∀ k hops other, (other = name → fs.ancestor hops k ≠ j) →
            fs'.getAt k hops other = fs.getAt k hops other) ∧
    ((∀ j ∈ fs.chain i, (fs.frame j).binds name = false) →
      fs.get i name = .error (.undefined name) ∧ Frames.assign i name v fs = .error (.undefined name) fs ∧
        ∀ hops, fs.getAt i hops name = .error (.undefined name) ∧
          Frames.assignAt i hops name v fs = .error (.undefined name) fs) ∧
    ∀ hops, (fs.chain i).length ≤ hops + 1 →
      ∃ root, (fs.chain i).getLast? = some root ∧ fs.parent? root = none ∧
        fs.getAt i hops name = fs.getAt root 0 name ∧
          Frames.assignAt i hops name v fs = Frames.assignAt root 0 name v fs := by
  refine ⟨fun d j h => ⟨h.get_eq, h.assign_eq v, fun fs' hok => ?_⟩, fun hnone => ?_, fun hops hbeyond => ?_⟩
  · have hre := h.reassigned hok
    exact ⟨fun k e hk => hre.get_self hk, hre.writes.others, fun k other hk => hre.get_other hk,
      fun k hops other hk => hre.getAt_other hk⟩
  · exact ⟨get_of_unbound hnone, assign_of_unbound hnone, fun hops =>
      ⟨getAt_of_unbound hnone, assignAt_of_unbound hnone⟩⟩
  · obtain ⟨hlast, hroot⟩ := getLast?_chain hbeyond
    exact ⟨_, hlast, hroot, rfl, rfl⟩

/-- A variable in front of a constant of the same name. -/
theorem addressed_eq_searched_shadowed :
    let fs : Frames := #[⟨[], [("n", .bool true)], none⟩, ⟨[("n", .null)], [], some 0⟩, ⟨[], [], some 1⟩]
    fs.FindsAt 2 "n" 1 1 ∧ fs.get 2 "n" = fs.getAt 2 1 "n" ∧
      Frames.assign 2 "n" (.bool false) fs = Frames.assignAt 2 1 "n" (.bool false) fs ∧
        ∀ fs', Frames.assign 2 "n" (.bool false) fs = .ok () fs' → fs'.get 2 "n" = .ok (.bool false) := by
  intro fs
  have hfinds : fs.FindsAt 2 "n" 1 1 := by
    refine ⟨rfl, rfl, fun k hk => ?_⟩
    obtain rfl : k = 0 := Nat.lt_one_iff.1 hk
    rfl
  obtain ⟨hfound, -, -⟩ := addressed_eq_searched fs 2 "n" (.bool false)
  obtain ⟨hget, hassign, hafter⟩ := hfound 1 1 hfinds
  exact ⟨hfinds, hget, hassign, fun fs' hok => (hafter fs' hok).1 2 1 hfinds⟩

end ScriptLang

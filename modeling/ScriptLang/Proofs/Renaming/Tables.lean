import Mathlib.Data.List.Forall2
import ScriptLang.Proofs.Renaming.Aligned
import ScriptLang.Proofs.Store.Related

/-!
# Renamed tables

A table with one name in place of another has related entries under corresponding names.  Names that are not the
new one stay apart, so what is looked up, replaced or added on both sides corresponds.

* `Table.Rekeyed` — the relation;
* `Table.Rekeyed.get?`, `Table.Rekeyed.put` — operations on both sides;
* `Table.Rekeyed.not_has`, `Table.Rekeyed.not_has_new` — names that are on neither side.
-/

namespace ScriptLang

variable {ρ : Renaming} {d : Distance} {hops : Nat} {a b key : String}

/-- Names other than the new one stay different. -/
lemma Renaming.text_inj (ha : ρ.Admits d a) (hb : ρ.Admits d b) : ρ.text d hops a = ρ.text d hops b ↔ a = b := by
  refine ⟨fun h => ?_, fun h => congrArg _ h⟩
  unfold Renaming.text at h
  split at h
  · next ha' =>
    split at h
    · next hb' => exact ha'.2.trans hb'.2.symm
    · exact absurd h.symm (hb (by rw [ha'.1]; nofun))
  · split at h
    · next hb' => exact absurd h (ha (by rw [hb'.1]; nofun))
    · exact h

/-- Related entries, under the same names but for the renamed one, in the same order. -/
def Table.Rekeyed {α : Type} (ρ : Renaming) (d : Distance) (R : α → α → Prop) (t t' : Table α) : Prop :=
  List.Forall₂ (fun e e' => ρ.Admits d e.1 ∧ e'.1 = ρ.text d 0 e.1 ∧ R e.2 e'.2) t t'

section Tables

variable {α : Type} {R S : α → α → Prop} {t t' : Table α}

lemma Table.has_eq_false_iff : t.has key = false ↔ key ∉ t.names := by
  rw [Table.has, Option.isSome_eq_false_iff, Option.isNone_iff_eq_none, Table.get?_eq_none_iff]

lemma Table.Rekeyed.imp (h : t.Rekeyed ρ d R t') (hRS : ∀ a b, R a b → S a b) : t.Rekeyed ρ d S t' :=
  List.Forall₂.imp (fun _ _ he => ⟨he.1, he.2.1, hRS _ _ he.2.2⟩) h

lemma Table.Rekeyed.names (h : t.Rekeyed ρ d R t') : t'.names = t.names.map (ρ.text d 0) := by
  induction h with
  | nil => rfl
  | cons he _ ih => exact congrArg₂ List.cons he.2.1 ih

lemma Table.Rekeyed.admits (h : t.Rekeyed ρ d R t') : ∀ name ∈ t.names, ρ.Admits d name := by
  induction h with
  | nil => exact List.forall_mem_nil _
  | cons he _ ih => exact List.forall_mem_cons.2 ⟨he.1, ih⟩

lemma Table.Rekeyed.get? (h : t.Rekeyed ρ d R t') (hkey : ρ.Admits d key) :
    Option.Rel R (t.get? key) (t'.get? (ρ.text d 0 key)) := by
  induction h with
  | nil => exact .none
  | @cons e e' t t' he _ ih =>
    obtain ⟨k, v⟩ := e
    obtain ⟨k', v'⟩ := e'
    obtain ⟨hk, rfl, hv⟩ := he
    simp only [Table.get?, Renaming.text_inj hk hkey]
    split
    · exact .some hv
    · exact ih

lemma Table.Rekeyed.has (h : t.Rekeyed ρ d R t') (hkey : ρ.Admits d key) :
    t'.has (ρ.text d 0 key) = t.has key := (isSome_eq_of_rel (h.get? hkey)).symm

lemma Table.Rekeyed.put {v v' : α} (h : t.Rekeyed ρ d R t') (hkey : ρ.Admits d key) (hv : R v v') :
    (t.put key v).Rekeyed ρ d R (t'.put (ρ.text d 0 key) v') := by
  induction h with
  | nil => exact .cons ⟨hkey, rfl, hv⟩ .nil
  | @cons e e' t t' he ht ih =>
    obtain ⟨k, w⟩ := e
    obtain ⟨k', w'⟩ := e'
    obtain ⟨hk, rfl, hw⟩ := he
    simp only [Table.put, Renaming.text_inj hk hkey]
    split
    · exact .cons ⟨hk, rfl, hv⟩ ht
    · exact .cons ⟨hk, rfl, hw⟩ ih

/-- A name that the one table lacks, the other one lacks too, be it the renamed one. -/
lemma Table.Rekeyed.not_has (h : t.Rekeyed ρ d R t') (hkey : ρ.Admits d key) (hnot : t.has key = false) :
    t'.has key = false := by
  by_cases hold : key = ρ.old
  · rw [Table.has_eq_false_iff] at hnot ⊢
    rw [h.names]
    intro hmem
    obtain ⟨name, hname, heq⟩ := List.mem_map.1 hmem
    have hne : name ≠ ρ.old := fun hn => hnot (hold.trans hn.symm ▸ hname)
    rw [ρ.text_of_ne hne] at heq
    exact hnot (heq ▸ hname)
  · have hsame := h.has hkey
    rw [ρ.text_of_ne hold] at hsame
    exact hsame.trans hnot

/-- Further inside the scope no name is the new one. -/
lemma Table.Rekeyed.not_has_new (h : t.Rekeyed ρ d R t') (hd : d ≠ none) (hd' : d ≠ some 0) :
    t'.has ρ.new = false := by
  rw [Table.has_eq_false_iff, h.names]
  intro hmem
  obtain ⟨name, hname, heq⟩ := List.mem_map.1 hmem
  have htext : ρ.text d 0 name = name := if_neg fun hn => hd' hn.1
  exact h.admits name hname hd (htext.symm.trans heq)

/-- Away from the scope the tables have the same names. -/
lemma Table.rekeyed_none : t.Rekeyed ρ none R t' ↔ t.Alike R t' := by
  refine ⟨List.Forall₂.imp fun _ _ he => ⟨?_, he.2.2⟩, List.Forall₂.imp fun _ _ he => ⟨ρ.admits_none, ?_, he.2⟩⟩
  · rw [he.2.1, ρ.text_none]
  · rw [ρ.text_none, he.1]

end Tables

end ScriptLang

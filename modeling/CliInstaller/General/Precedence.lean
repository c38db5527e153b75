import Mathlib.Data.List.Basic

/-!
# Precedence in a list

An element precedes another in a list when each occurrence of the other comes after one of it.

## Main definitions

* `Precedes a b l`: before every `b` of `l` stands an `a`

## Main results

* `Precedes.trans`, `Precedes.not_mem_of_symm`: precedence is transitive, and asymmetric
* `precedes_append`: precedence in two lists, one after the other
-/

namespace Precedence

variable {α : Type} {a b c : α} {l l₁ l₂ : List α}

/-- Before every `b` of the list stands an `a`. -/
def Precedes (a b : α) (l : List α) : Prop :=
  ∀ front back, l = front ++ b :: back → a ∈ front

theorem precedes_nil : Precedes a b [] := by
  intro front back h
  simp at h

theorem precedes_cons : Precedes a b (c :: l) ↔ c ≠ b ∧ (c = a ∨ Precedes a b l) := by
  constructor
  · intro h
    refine ⟨?_, ?_⟩
    · rintro rfl
      exact absurd (h [] l rfl) List.not_mem_nil
    · by_cases hca : c = a
      · exact .inl hca
      · refine .inr fun front back hl => ?_
        have hmem := h (c :: front) back (by rw [hl, List.cons_append])
        exact (List.mem_cons.mp hmem).resolve_left (Ne.symm hca)
  · rintro ⟨hcb, h⟩ front back hl
    rcases front with _ | ⟨d, front⟩
    · exact absurd (List.cons.inj hl).1 hcb
    · obtain ⟨rfl, hrest⟩ := List.cons.inj hl
      rcases h with rfl | h
      · exact List.mem_cons_self
      · exact List.mem_cons_of_mem _ (h front back hrest)

theorem precedes_of_not_mem (h : b ∉ l) : Precedes a b l := by
  rintro front back rfl
  exact absurd (List.mem_append_right _ List.mem_cons_self) h

/-- **Precedence in two lists**, one after the other. -/
theorem precedes_append :
    Precedes a b (l₁ ++ l₂) ↔ Precedes a b l₁ ∧ (a ∈ l₁ ∨ Precedes a b l₂) := by
  induction l₁ with
  | nil => simp [precedes_nil]
  | cons c l₁ ih =>
    rw [List.cons_append, precedes_cons, precedes_cons, ih, List.mem_cons]
    constructor
    · rintro ⟨hcb, hca | ⟨h₁, h₂⟩⟩
      · exact ⟨⟨hcb, .inl hca⟩, .inl (.inl hca.symm)⟩
      · exact ⟨⟨hcb, .inr h₁⟩, h₂.imp_left .inr⟩
    · rintro ⟨⟨hcb, hca | h₁⟩, h₂⟩
      · exact ⟨hcb, .inl hca⟩
      · rcases h₂ with (rfl | h₂) | h₂
        · exact ⟨hcb, .inl rfl⟩
        · exact ⟨hcb, .inr ⟨h₁, .inl h₂⟩⟩
        · exact ⟨hcb, .inr ⟨h₁, .inr h₂⟩⟩

theorem Precedes.trans (hab : Precedes a b l) (hbc : Precedes b c l) : Precedes a c l := by
  rintro front back hl
  obtain ⟨front₁, front₂, rfl⟩ := List.append_of_mem (hbc front back hl)
  have hmem := hab front₁ (front₂ ++ c :: back) (by rw [hl, List.append_assoc, List.cons_append])
  exact List.mem_append_left _ hmem

/-- **Two elements that precede each other** are not in the list. -/
theorem Precedes.not_mem_of_symm (hab : Precedes a b l) (hba : Precedes b a l) : a ∉ l := by
  induction l with
  | nil => exact List.not_mem_nil
  | cons c l ih =>
    obtain ⟨hcb, hab⟩ := precedes_cons.mp hab
    obtain ⟨hca, hba⟩ := precedes_cons.mp hba
    rw [List.mem_cons, not_or]
    exact ⟨Ne.symm hca, ih (hab.resolve_left hca) (hba.resolve_left hcb)⟩

theorem Precedes.erase [BEq α] [LawfulBEq α] (h : Precedes a b l) (ha : c ≠ a) (hb : c ≠ b) :
    Precedes a b (l.erase c) := by
  induction l with
  | nil => exact precedes_nil
  | cons d l ih =>
    obtain ⟨hdb, h⟩ := precedes_cons.mp h
    by_cases hdc : d = c
    · subst hdc
      rw [List.erase_cons_head]
      exact h.resolve_left ha
    · rw [List.erase_cons_tail (by simpa using hdc)]
      exact precedes_cons.mpr ⟨hdb, h.imp_right ih⟩

end Precedence

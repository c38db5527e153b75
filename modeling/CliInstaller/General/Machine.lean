import Mathlib.Logic.Basic
import Mathlib.Data.List.Basic

/-!
# Runs of a machine, guards and simulations

A machine answers each input with an output and moves to a next state. Guards that agree in the
states of an invariant hold along the same runs; a simulation that every legal step keeps relates
the states of two machines after every legal run, and makes their outputs equal.

## Main definitions

* `Machine σ ι ο`, `Machine.run`: a machine, and the state after a sequence of inputs
* `Machine.Along G`: every step of the run meets the guard `G`
* `Machine.Throughout P`: every state of the run has the property `P`
* `Simulates M A R legal`: `R` is a simulation of `M` by `A` for legal inputs

## Main results

* `Machine.Along.iff_of_invariant`: guards that agree in the states of an invariant
* `Machine.Throughout.iff_along`: a property of all states as a guard on the steps
* `Simulates.run`: a simulation relates the states reached by legal runs
-/

namespace Machines

variable {σ τ ι ο : Type}

/-- A machine: the output and the next state of each input. -/
structure Machine (σ ι ο : Type) where
  step : ι → σ → ο × σ

namespace Machine

variable (M : Machine σ ι ο)

/-- The state reached by a sequence of inputs. -/
def run : List ι → σ → σ
  | [], s => s
  | i :: is, s => run is (M.step i s).2

theorem run_append (is js : List ι) (s : σ) : M.run (is ++ js) s = M.run js (M.run is s) := by
  induction is generalizing s with
  | nil => rfl
  | cons i is ih => exact ih _

/-- Every step of the run meets the guard, in the state it is taken in. -/
def Along (G : ι → σ → Prop) : List ι → σ → Prop
  | [], _ => True
  | i :: is, s => G i s ∧ Along G is (M.step i s).2

variable {M}

@[simp] theorem along_nil (G : ι → σ → Prop) (s : σ) : M.Along G [] s := trivial

@[simp] theorem along_cons {G : ι → σ → Prop} {i : ι} {is : List ι} {s : σ} :
    M.Along G (i :: is) s ↔ G i s ∧ M.Along G is (M.step i s).2 := Iff.rfl

theorem along_true (is : List ι) (s : σ) : M.Along (fun _ _ => True) is s := by
  induction is generalizing s with
  | nil => trivial
  | cons i is ih => exact ⟨trivial, ih _⟩

theorem along_append {G : ι → σ → Prop} {is js : List ι} {s : σ} :
    M.Along G (is ++ js) s ↔ M.Along G is s ∧ M.Along G js (M.run is s) := by
  induction is generalizing s with
  | nil => exact (and_iff_right trivial).symm
  | cons i is ih => rw [List.cons_append, along_cons, along_cons, ih, and_assoc, run]

/-- **Two guards hold along the same runs** if they agree on legal inputs in the states of an
invariant that the guarded steps keep. -/
theorem Along.iff_of_invariant {G K legal : ι → σ → Prop} {I : σ → Prop}
    (hagree : ∀ i s, I s → legal i s → (G i s ↔ K i s))
    (hstep : ∀ i s, I s → legal i s → G i s → I (M.step i s).2) {is : List ι} {s : σ}
    (hlegal : M.Along legal is s) (hs : I s) : M.Along G is s ↔ M.Along K is s := by
  induction is generalizing s with
  | nil => simp
  | cons i is ih =>
    rw [along_cons, along_cons, ← hagree i s hs hlegal.1]
    exact and_congr_right fun hG => ih hlegal.2 (hstep i s hs hlegal.1 hG)

/-- Every state of the run has the property, the first and the last too. -/
def Throughout (M : Machine σ ι ο) (P : σ → Prop) : List ι → σ → Prop
  | [], s => P s
  | i :: is, s => P s ∧ Throughout M P is (M.step i s).2

@[simp] theorem throughout_cons {P : σ → Prop} {i : ι} {is : List ι} {s : σ} :
    M.Throughout P (i :: is) s ↔ P s ∧ M.Throughout P is (M.step i s).2 := Iff.rfl

theorem Throughout.head {P : σ → Prop} {is : List ι} {s : σ} (h : M.Throughout P is s) : P s := by
  cases is with
  | nil => exact h
  | cons i is => exact h.1

theorem Throughout.run {P : σ → Prop} {is : List ι} {s : σ} (h : M.Throughout P is s) :
    P (M.run is s) := by
  induction is generalizing s with
  | nil => exact h
  | cons i is ih => exact ih h.2

/-- **A property holds throughout a run** whose steps meet a guard that keeps an invariant. -/
theorem Throughout.of_along {P I : σ → Prop} {G : ι → σ → Prop} (himp : ∀ s, I s → P s)
    (hkeep : ∀ i s, I s → G i s → I (M.step i s).2) {is : List ι} {s : σ} (h : M.Along G is s)
    (hs : I s) : M.Throughout P is s := by
  induction is generalizing s with
  | nil => exact himp s hs
  | cons i is ih => exact ⟨himp s hs, ih h.2 (hkeep i s hs h.1)⟩

/-- **A property holds throughout a run iff its steps meet a guard**: the guard keeps an invariant
that implies the property, and a step that does not meet it ends in a state without it. -/
theorem Throughout.iff_along {P I : σ → Prop} {G legal : ι → σ → Prop} (himp : ∀ s, I s → P s)
    (hkeep : ∀ i s, I s → legal i s → G i s → I (M.step i s).2)
    (hbreak : ∀ i s, I s → legal i s → P (M.step i s).2 → G i s) {is : List ι} {s : σ}
    (hlegal : M.Along legal is s) (hs : I s) : M.Throughout P is s ↔ M.Along G is s := by
  induction is generalizing s with
  | nil => exact iff_of_true (himp s hs) trivial
  | cons i is ih =>
    rw [throughout_cons, along_cons]
    constructor
    · rintro ⟨-, hrest⟩
      have hG := hbreak i s hs hlegal.1 hrest.head
      exact ⟨hG, (ih hlegal.2 (hkeep i s hs hlegal.1 hG)).mp hrest⟩
    · rintro ⟨hG, hrest⟩
      exact ⟨himp s hs, (ih hlegal.2 (hkeep i s hs hlegal.1 hG)).mpr hrest⟩

end Machine

/-- `R` relates the states of `M` to those of `A`, and is kept by legal inputs, whose outputs
agree. -/
structure Simulates (M : Machine σ ι ο) (A : Machine τ ι ο) (R : σ → τ → Prop)
    (legal : ι → Prop) : Prop where
  output : ∀ {i s t}, legal i → R s t → (M.step i s).1 = (A.step i t).1
  next : ∀ {i s t}, legal i → R s t → R (M.step i s).2 (A.step i t).2

/-- **A simulation relates the states reached by a legal run.** -/
theorem Simulates.run {M : Machine σ ι ο} {A : Machine τ ι ο} {R : σ → τ → Prop}
    {legal : ι → Prop} (h : Simulates M A R legal) {is : List ι} (his : ∀ i ∈ is, legal i)
    {s : σ} {t : τ} (hst : R s t) : R (M.run is s) (A.run is t) := by
  induction is generalizing s t with
  | nil => exact hst
  | cons i is ih =>
    exact ih (fun j hj => his j (List.mem_cons_of_mem i hj))
      (h.next (his i List.mem_cons_self) hst)

end Machines

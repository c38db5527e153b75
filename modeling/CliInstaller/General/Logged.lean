import Mathlib.Logic.Basic
import Mathlib.Data.List.Basic

/-!
# Computations with a log

A computation writes entries to a log and ends with a value or with an error; what was written
before an error stays in the log. What a sequence writes is what its parts write, so a computation
that ends without an entry is a sequence of such computations.

## Main definitions

* `Logged ω ε α`: the log and the outcome of a computation
* `Logged.tell`, `Logged.ofExcept`: writing entries, and ending as another computation does
* `Ends x log a`: the computation ends with `a`, and has written `log`
* `Writes x`: it has written something whenever it ends
* `Only P x`: every entry of its log has a property

## Main results

* `ends_bind`, `exists_ends_bind`: how a sequence ends
* `Writes.bind`, `Writes.bind_right`: a sequence writes where one part of it does
* `ends_ite_iff`: a choice between writing and returning
* `Only.bind`: a sequence writes what its parts write
-/

namespace Logging

variable {ω ε α β : Type}

/-- A log, and a value or an error. -/
structure Logged (ω ε α : Type) where
  log : List ω
  outcome : Except ε α
  deriving DecidableEq, Repr

namespace Logged

/-- Nothing is written after an error. -/
protected def bind (x : Logged ω ε α) (f : α → Logged ω ε β) : Logged ω ε β :=
  match x.outcome with
  | .error e => ⟨x.log, .error e⟩
  | .ok a => ⟨x.log ++ (f a).log, (f a).outcome⟩

instance : Monad (Logged ω ε) where
  pure a := ⟨[], .ok a⟩
  bind := Logged.bind

/-- Entries are written. -/
def tell (log : List ω) : Logged ω ε Unit := ⟨log, .ok ()⟩

/-- A computation without a log. -/
def ofExcept (outcome : Except ε α) : Logged ω ε α := ⟨[], outcome⟩

end Logged

/-- **The computation ends** with a value, and has written the log. -/
def Ends (x : Logged ω ε α) (log : List ω) (a : α) : Prop := x = ⟨log, .ok a⟩

/-- Every entry has a property, also where the computation ends with an error. -/
def Only (P : ω → Prop) (x : Logged ω ε α) : Prop := ∀ entry ∈ x.log, P entry

instance [DecidableEq ω] [DecidableEq ε] [DecidableEq α] (x : Logged ω ε α) (log : List ω) (a : α) :
    Decidable (Ends x log a) :=
  inferInstanceAs (Decidable (x = _))

/-- The log is not empty where the computation ends. -/
def Writes (x : Logged ω ε α) : Prop := ∀ log a, Ends x log a → log ≠ []

section Rules

variable {x : Logged ω ε α} {f : α → Logged ω ε β} {log : List ω} {a : α} {b : β}

@[simp] theorem ends_pure {a' : α} :
    Ends (pure a : Logged ω ε α) log a' ↔ log = [] ∧ a' = a := by
  simp [Ends, pure, eq_comm]

@[simp] theorem ends_tell {entries : List ω} {u : Unit} :
    Ends (Logged.tell entries : Logged ω ε Unit) log u ↔ log = entries := by
  simp [Ends, Logged.tell, eq_comm]

@[simp] theorem ends_ofExcept {outcome : Except ε α} :
    Ends (Logged.ofExcept outcome : Logged ω ε α) log a ↔ log = [] ∧ outcome = .ok a := by
  simp [Ends, Logged.ofExcept, eq_comm]

/-- **A sequence ends** where both parts do, and its log is theirs. -/
theorem ends_bind : Ends (x >>= f) log b ↔
    ∃ a log₁ log₂, Ends x log₁ a ∧ Ends (f a) log₂ b ∧ log = log₁ ++ log₂ := by
  obtain ⟨entries, outcome⟩ := x
  show Logged.bind _ f = _ ↔ _
  cases outcome with
  | error e => simp [Ends, Logged.bind]
  | ok a =>
    rcases hfa : f a with ⟨entries', outcome'⟩
    simp only [Ends, Logged.bind, hfa, Logged.mk.injEq, Except.ok.injEq]
    constructor
    · rintro ⟨rfl, houtcome⟩
      exact ⟨a, entries, entries', ⟨rfl, rfl⟩, by rw [hfa, houtcome], rfl⟩
    · rintro ⟨_, _, _, ⟨rfl, rfl⟩, hrest, rfl⟩
      rw [hfa, Logged.mk.injEq] at hrest
      exact ⟨by rw [hrest.1], hrest.2⟩

/-- A sequence ends somehow iff both parts do. -/
theorem exists_ends_bind : (∃ log, Ends (x >>= f) log b) ↔
    ∃ a, (∃ log, Ends x log a) ∧ ∃ log, Ends (f a) log b := by
  constructor
  · rintro ⟨log, h⟩
    obtain ⟨a, log₁, log₂, hx, hf, -⟩ := ends_bind.mp h
    exact ⟨a, ⟨log₁, hx⟩, log₂, hf⟩
  · rintro ⟨a, ⟨log₁, hx⟩, log₂, hf⟩
    exact ⟨log₁ ++ log₂, ends_bind.mpr ⟨a, log₁, log₂, hx, hf, rfl⟩⟩

theorem Writes.bind (h : Writes x) : Writes (x >>= f) := by
  intro log b hends
  obtain ⟨a, log₁, log₂, hx, -, rfl⟩ := ends_bind.mp hends
  exact List.append_ne_nil_of_left_ne_nil (h log₁ a hx) log₂

theorem Writes.bind_right (h : ∀ a, Writes (f a)) : Writes (x >>= f) := by
  intro log b hends
  obtain ⟨a, log₁, log₂, -, hf, rfl⟩ := ends_bind.mp hends
  exact List.append_ne_nil_of_right_ne_nil log₁ (h a log₂ b hf)

theorem writes_tell {entries : List ω} (h : entries ≠ []) :
    Writes (Logged.tell entries : Logged ω ε Unit) := by
  intro log u hends
  rwa [ends_tell.mp hends]

/-- **A choice between writing and returning** writes nothing iff it returns. -/
theorem ends_ite_iff {c : Prop} [Decidable c] {a' : α} (hwrites : Writes x)
    (h : Ends (if c then x else pure a') log a) : log = [] ↔ ¬ c := by
  split_ifs at h with hc
  · exact iff_of_false (hwrites log a h) (not_not.mpr hc)
  · exact iff_of_true (ends_pure.mp h).1 hc

/-- What a sequence has written when its first part ends. -/
theorem log_bind_of_ends (h : Ends x log a) : (x >>= f).log = log ++ (f a).log := by
  rw [show x = ⟨log, .ok a⟩ from h]
  rfl

/-- After an error nothing is written. -/
theorem log_bind_of_error {e : ε} (h : x.outcome = .error e) : (x >>= f).log = x.log := by
  obtain ⟨entries, outcome⟩ := x
  obtain rfl : outcome = .error e := h
  rfl

end Rules

/-! ## What every entry has -/

section Only

variable {P : ω → Prop} {x : Logged ω ε α} {f : α → Logged ω ε β}

theorem only_pure (a : α) : Only P (pure a : Logged ω ε α) := fun _ h => absurd h List.not_mem_nil

theorem only_ofExcept (outcome : Except ε α) : Only P (Logged.ofExcept outcome : Logged ω ε α) :=
  fun _ h => absurd h List.not_mem_nil

theorem only_tell {entries : List ω} (h : ∀ entry ∈ entries, P entry) :
    Only P (Logged.tell entries : Logged ω ε Unit) := h

/-- **A sequence writes what its parts write.** -/
theorem Only.bind (hx : Only P x) (hf : ∀ a, Only P (f a)) : Only P (x >>= f) := by
  rcases houtcome : x.outcome with e | a
  · rw [Only, log_bind_of_error houtcome]
    exact hx
  · have hends : Ends x x.log a := by rw [Ends, ← houtcome]
    rw [Only, log_bind_of_ends hends]
    exact List.forall_mem_append.mpr ⟨hx, hf a⟩

end Only

end Logging

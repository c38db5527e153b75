import Mathlib.Data.List.Forall2

/-!
# Commands that are checked

A command changes a state and says whether it succeeded. A sequence of commands ends at the first
that fails, in the state that the ones before it have left. A command that carries out an operation
succeeds where the operation is possible and changes nothing where it is not, so what a sequence of
commands does is what the operations do one after the other.

## Main definitions

* `Exec κ σ`: what each command does
* `andThen`, `runAll`: two steps, and a sequence of commands, up to the first failure
* `CarriesOut exec cmd op`: the command carries out an operation
* `inTurn ops`: operations one after the other, all of them

## Main results

* `runAll_append`: a sequence in two parts
* `runAll_eq_true_iff`: a sequence succeeds iff its operations are possible in turn
* `runAll_eq_false_iff`: a sequence fails at the first operation that is not possible
-/

namespace Commands

/-- An element of a list is looked for by comparing. -/
scoped instance decidableMem {α : Type} [DecidableEq α] (x : α) (xs : List α) : Decidable (x ∈ xs) :=
  decidable_of_iff (xs.any (x = ·) = true) (by simp)

variable {κ ι σ : Type}

/-- What a command does: whether it succeeds, and the state after it. -/
abbrev Exec (κ σ : Type) := κ → σ → Bool × σ

/-- The second step is taken if the first succeeds. -/
def andThen (first second : σ → Bool × σ) (s : σ) : Bool × σ :=
  match first s with
  | (true, s') => second s'
  | (false, s') => (false, s')

/-- Commands up to the first that fails. -/
def runAll (exec : Exec κ σ) : List κ → σ → Bool × σ
  | [], s => (true, s)
  | cmd :: cmds, s => andThen (exec cmd) (runAll exec cmds) s

/-- Commands whose outcome is not checked. -/
def runEach (exec : Exec κ σ) (cmds : List κ) (s : σ) : σ := cmds.foldl (fun s cmd => (exec cmd s).2) s

/-- An operation that may not be possible; then nothing changes. -/
def attempt (op : σ → Option σ) (s : σ) : Bool × σ :=
  match op s with
  | some s' => (true, s')
  | none => (false, s)

/-- **The command carries out the operation.** -/
def CarriesOut (exec : Exec κ σ) (cmd : κ) (op : σ → Option σ) : Prop :=
  ∀ s, exec cmd s = attempt op s

/-- Operations one after the other, if all of them are possible. -/
def inTurn (ops : List (σ → Option σ)) (s : σ) : Option σ := ops.foldlM (fun s op => op s) s

@[simp] theorem inTurn_nil (s : σ) : inTurn [] s = some s := rfl

theorem inTurn_cons (op : σ → Option σ) (ops : List (σ → Option σ)) (s : σ) :
    inTurn (op :: ops) s = (op s).bind (inTurn ops) := rfl

theorem inTurn_append (ops ops' : List (σ → Option σ)) (s : σ) :
    inTurn (ops ++ ops') s = (inTurn ops s).bind (inTurn ops') := by
  induction ops generalizing s with
  | nil => rfl
  | cons op ops ih =>
    rw [List.cons_append, inTurn_cons, inTurn_cons, Option.bind_assoc]
    exact congrArg (op s).bind (funext fun s' => ih s')

/-- What every operation keeps, a sequence of them keeps. -/
theorem inTurn_keeps {ops : List (σ → Option σ)} {P : σ → Prop} {s s' : σ}
    (hops : ∀ op ∈ ops, ∀ s s', P s → op s = some s' → P s') (hs : P s) (h : inTurn ops s = some s') :
    P s' := by
  induction ops generalizing s with
  | nil => exact Option.some.inj h ▸ hs
  | cons op ops ih =>
    rw [inTurn_cons, Option.bind_eq_some_iff] at h
    obtain ⟨s₁, hop, hrest⟩ := h
    exact ih (fun op hop => hops op (List.mem_cons_of_mem _ hop))
      (hops op List.mem_cons_self s s₁ hs hop) hrest

section Steps

variable {first second : σ → Bool × σ} {s s' : σ}

theorem andThen_eq_true_iff :
    andThen first second s = (true, s') ↔ ∃ s₁, first s = (true, s₁) ∧ second s₁ = (true, s') := by
  unfold andThen
  rcases first s with ⟨_ | _, s₁⟩ <;> simp

theorem andThen_eq_false_iff :
    andThen first second s = (false, s') ↔
      first s = (false, s') ∨ ∃ s₁, first s = (true, s₁) ∧ second s₁ = (false, s') := by
  unfold andThen
  rcases first s with ⟨_ | _, s₁⟩ <;> simp

theorem attempt_eq_true_iff {op : σ → Option σ} : attempt op s = (true, s') ↔ op s = some s' := by
  unfold attempt
  rcases op s with _ | s₁ <;> simp

theorem attempt_eq_false_iff {op : σ → Option σ} :
    attempt op s = (false, s') ↔ op s = none ∧ s' = s := by
  unfold attempt
  rcases op s with _ | s₁ <;> simp [eq_comm]

/-- What an operation keeps, a command that carries it out keeps, whether it succeeds or not. -/
theorem CarriesOut.keeps {exec : Exec κ σ} {cmd : κ} {op : σ → Option σ} {P : σ → Prop}
    (hcmd : CarriesOut exec cmd op) (hop : ∀ s s', P s → op s = some s' → P s') (hs : P s) :
    P (exec cmd s).2 := by
  rw [hcmd s, attempt]
  rcases hs' : op s with _ | s₁
  · exact hs
  · exact hop s s₁ hs hs'

theorem andThen_keeps {P : σ → Prop} (hfirst : P (first s).2)
    (hsecond : ∀ s₁, first s = (true, s₁) → P (second s₁).2) : P (andThen first second s).2 := by
  unfold andThen
  rcases h : first s with ⟨_ | _, s₁⟩
  · exact (congrArg (P ∘ Prod.snd) h).mp hfirst
  · exact hsecond s₁ h

end Steps

section Runs

variable {exec : Exec κ σ} {cmds : List κ} {ops : List (σ → Option σ)} {s s' : σ}

@[simp] theorem runAll_nil : runAll exec [] s = (true, s) := rfl

theorem runAll_cons {cmd : κ} : runAll exec (cmd :: cmds) s = andThen (exec cmd) (runAll exec cmds) s :=
  rfl

/-- **A sequence in two parts**: the second is run if the first succeeds. -/
theorem runAll_append (cmds cmds' : List κ) (s : σ) :
    runAll exec (cmds ++ cmds') s = andThen (runAll exec cmds) (runAll exec cmds') s := by
  induction cmds generalizing s with
  | nil => rfl
  | cons cmd cmds ih =>
    rw [List.cons_append, runAll_cons, andThen, andThen, runAll_cons, andThen]
    rcases exec cmd s with ⟨_ | _, s₁⟩
    · rfl
    · exact ih s₁

/-- **A sequence of commands succeeds** iff their operations are possible in turn. -/
theorem runAll_eq_true_iff (h : List.Forall₂ (CarriesOut exec) cmds ops) :
    runAll exec cmds s = (true, s') ↔ inTurn ops s = some s' := by
  induction h generalizing s with
  | nil => simp [eq_comm]
  | cons hcmd _ ih =>
    rw [runAll_cons, andThen_eq_true_iff, inTurn_cons, Option.bind_eq_some_iff, hcmd s]
    simp only [attempt_eq_true_iff, ih]

/-- **A sequence fails** at the first operation that is not possible, in the state before it. -/
theorem runAll_eq_false_iff (h : List.Forall₂ (CarriesOut exec) cmds ops) :
    runAll exec cmds s = (false, s') ↔
      ∃ before op after, ops = before ++ op :: after ∧ inTurn before s = some s' ∧ op s' = none := by
  induction h generalizing s with
  | nil => simp
  | @cons cmd op cmds ops hcmd _ ih =>
    rw [runAll_cons, andThen_eq_false_iff, hcmd s, attempt_eq_false_iff]
    simp only [attempt_eq_true_iff, ih]
    constructor
    · rintro (⟨hnone, rfl⟩ | ⟨s₁, hop, before, op', after, rfl, hbefore, hnone⟩)
      · exact ⟨[], op, ops, rfl, rfl, hnone⟩
      · refine ⟨op :: before, op', after, rfl, ?_, hnone⟩
        rw [inTurn_cons, hop]
        exact hbefore
    · rintro ⟨before, op', after, hsplit, hbefore, hnone⟩
      rcases before with _ | ⟨op₁, before⟩
      · obtain ⟨rfl, -⟩ := List.cons.inj hsplit
        obtain rfl := Option.some.inj hbefore
        exact .inl ⟨hnone, rfl⟩
      · obtain ⟨rfl, rfl⟩ := List.cons.inj hsplit
        rw [inTurn_cons] at hbefore
        obtain ⟨s₁, hop, hrest⟩ := Option.bind_eq_some_iff.mp hbefore
        exact .inr ⟨s₁, hop, before, op', after, rfl, hrest, hnone⟩

/-- What every command keeps, a sequence keeps, whether it succeeds or not. -/
theorem runAll_keeps {P : σ → Prop} (hkeep : ∀ cmd ∈ cmds, ∀ s, P s → P (exec cmd s).2) (hs : P s) :
    P (runAll exec cmds s).2 := by
  induction cmds generalizing s with
  | nil => exact hs
  | cons cmd cmds ih =>
    have hcmd := hkeep cmd List.mem_cons_self s hs
    rw [runAll_cons, andThen]
    rcases hexec : exec cmd s with ⟨_ | _, s₁⟩ <;> rw [hexec] at hcmd
    · exact hcmd
    · exact ih (fun cmd hcmd => hkeep cmd (List.mem_cons_of_mem _ hcmd)) hcmd

end Runs

end Commands

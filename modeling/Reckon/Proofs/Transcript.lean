import Mathlib.Data.List.Forall2

/-!
# Runs of a machine

A machine takes a state and an input to an output and the next state. Its `transcript` lists, for
successive inputs, what was put in, what came out and the state after it, and `stateAfter` is the
state in the end.

What holds of a whole run is derived from what holds of one step:

* `stateAfter_induction`: what every step keeps holds in the end.
* `Simulation.transcript_eq`: if one machine follows another step by step, taking some of its inputs
  and keeping a relation of the two states, then it shows the same at all the steps it takes.
* `Simulation.filter_transcript_eq`: then the inputs that it does not take make no difference.
* `Lockstep.run`: if two machines agree at matching inputs and keep a relation of their states, then
  they agree at every step of two runs.
-/

namespace Reckon

/-- One step of a run: what was put in, what came out, and the state after it. -/
structure Exchange (ι ο σ : Type) where
  input : ι
  output : ο
  after : σ

variable {ι κ ο ρ σ τ α : Type}

/-- The step of a machine on an input. -/
def exchange (step : σ → ι → ο × σ) (s : σ) (i : ι) : Exchange ι ο σ :=
  ⟨i, (step s i).1, (step s i).2⟩

/-- The steps of a machine on successive inputs. -/
def transcript (step : σ → ι → ο × σ) : σ → List ι → List (Exchange ι ο σ)
  | _, [] => []
  | s, i :: rest => exchange step s i :: transcript step (step s i).2 rest

/-- The state of a machine after successive inputs. -/
def stateAfter (step : σ → ι → ο × σ) (s : σ) (inputs : List ι) : σ :=
  inputs.foldl (fun s i => (step s i).2) s

/-- What every step keeps holds in the end. -/
theorem stateAfter_induction {step : σ → ι → ο × σ} {P : σ → Prop}
    (hstep : ∀ s i, P s → P (step s i).2) {s : σ} (h : P s) (inputs : List ι) :
    P (stateAfter step s inputs) := by
  induction inputs generalizing s with
  | nil => exact h
  | cons i rest ih => exact ih (hstep s i h)

/-- The steps of a run are on its inputs. -/
theorem map_input_transcript (step : σ → ι → ο × σ) (s : σ) (inputs : List ι) :
    (transcript step s inputs).map Exchange.input = inputs := by
  induction inputs generalizing s with
  | nil => rfl
  | cons i rest ih => exact congrArg (i :: ·) (ih (step s i).2)

/-- A run on inputs of one sort has steps on no others. -/
theorem filter_transcript_of_forall {step : σ → ι → ο × σ} (p : ι → Bool) {inputs : List ι}
    (h : ∀ i ∈ inputs, p i = true) (s : σ) :
    (transcript step s inputs).filter (fun e => p e.input) = transcript step s inputs := by
  refine List.filter_eq_self.mpr fun e he => h e.input ?_
  rw [← map_input_transcript step s inputs]
  exact List.mem_map_of_mem he

/-! ### One machine follows another -/

/-- A machine takes some inputs of another one, in a form of its own. At every input that is taken
both show the same, and a relation of their states outlives the inputs that are taken and those
that are not. -/
structure Simulation (step : σ → ι → ο × σ) (step' : τ → κ → ρ × τ) (take? : ι → Option κ)
    (R : σ → τ → Prop) (shown : Exchange ι ο σ → α) (shown' : Exchange κ ρ τ → α) : Prop where
  taken : ∀ {s t i k}, R s t → take? i = some k →
    shown (exchange step s i) = shown' (exchange step' t k) ∧ R (step s i).2 (step' t k).2
  passed : ∀ {s t i}, R s t → take? i = none → R (step s i).2 t

namespace Simulation

variable {step : σ → ι → ο × σ} {step' : τ → κ → ρ × τ} {take? : ι → Option κ} {R : σ → τ → Prop}
  {shown : Exchange ι ο σ → α} {shown' : Exchange κ ρ τ → α} {s : σ} {t : τ}

/-- **Simulation.** Both machines show the same at all inputs that are taken. -/
theorem transcript_eq (sim : Simulation step step' take? R shown shown') (h : R s t)
    (inputs : List ι) :
    ((transcript step s inputs).filter fun e => (take? e.input).isSome).map shown =
      (transcript step' t (inputs.filterMap take?)).map shown' := by
  -- both states move on with every input, so the induction is for any two that are related
  induction inputs generalizing s t with
  | nil => rfl
  | cons i rest ih =>
    rw [transcript]
    rcases hi : take? i with _ | k
    · have hrest := ih (sim.passed h hi)
      rw [List.filter_cons_of_neg (by simp [exchange, hi]), List.filterMap_cons_none hi]
      exact hrest
    · obtain ⟨hshown, hafter⟩ := sim.taken h hi
      have hrest := ih hafter
      rw [List.filter_cons_of_pos (by simp [exchange, hi]), List.filterMap_cons_some hi, transcript,
        List.map_cons, List.map_cons, hshown, hrest]

/-- A machine that takes all inputs shows the same all along. -/
theorem map_transcript_eq {step' : τ → ι → ρ × τ} {shown' : Exchange ι ρ τ → α}
    (sim : Simulation step step' some R shown shown') (h : R s t) (inputs : List ι) :
    (transcript step s inputs).map shown = (transcript step' t inputs).map shown' := by
  have heq := sim.transcript_eq h inputs
  rwa [filter_transcript_of_forall (fun i => (some i).isSome) (fun _ _ => rfl),
    List.filterMap_some] at heq

end Simulation

/-! ### Two machines side by side -/

/-- Two machines take matching inputs. What they do at such inputs agrees and keeps a relation of
their states. -/
structure Lockstep (step : σ → ι → ο × σ) (step' : τ → κ → ρ × τ) (matching : ι → κ → Prop)
    (R : σ → τ → Prop) (agree : Exchange ι ο σ → Exchange κ ρ τ → Prop) : Prop where
  step : ∀ {s t i k}, R s t → matching i k →
    agree (exchange step s i) (exchange step' t k) ∧ R (step s i).2 (step' t k).2

/-- **Runs on matching inputs agree step by step**, and the states are related in the end. -/
theorem Lockstep.run {step : σ → ι → ο × σ} {step' : τ → κ → ρ × τ} {matching : ι → κ → Prop}
    {R : σ → τ → Prop} {agree : Exchange ι ο σ → Exchange κ ρ τ → Prop}
    (lockstep : Lockstep step step' matching R agree) {s : σ} {t : τ} (h : R s t)
    {inputs : List ι} {inputs' : List κ} (hinputs : List.Forall₂ matching inputs inputs') :
    List.Forall₂ agree (transcript step s inputs) (transcript step' t inputs') ∧
      R (stateAfter step s inputs) (stateAfter step' t inputs') := by
  induction hinputs generalizing s t with
  | nil => exact ⟨.nil, h⟩
  | cons hmatch _ ih =>
    obtain ⟨hagree, hafter⟩ := lockstep.step h hmatch
    obtain ⟨hrest, hend⟩ := ih hafter
    exact ⟨.cons hagree hrest, hend⟩

end Reckon

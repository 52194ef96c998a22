import Mathlib.Data.List.Induction
import Mathlib.Tactic.Common

/-!
# Runs of a deterministic system

A deterministic system answers every input with an observation and moves to the next state. A
concurrent program is such a system whose inputs say which thread moves, so that a statement about
every input list is a statement about every interleaving.

The rules below are the ones the case studies use: an invariant may speak about the inputs read so
far (`run_induction`), two systems related by a simulation make the same observations
(`trace_eq_of_simulation`), a rank that the steps lower leads to a goal (`reaches_of_rank`), and a
concurrent object is linearizable when each of its operations takes effect in one step
(`linearization`).
-/

universe u v w

/-- A deterministic system with inputs `ι` and observations `ο`. -/
structure DetSystem (ι : Type u) (ο : Type v) where
  State : Type w
  init : State
  /-- The state after an input. -/
  next : State → ι → State
  /-- What the outside sees when the input is read. -/
  obs : State → ι → ο

namespace DetSystem

variable {ι κ : Type*} {ο : Type*} (M : DetSystem ι ο)

/-- The state after reading the inputs. -/
def run (is : List ι) : M.State := is.foldl M.next M.init

/-- The observations made while reading the inputs from a given state. -/
def traceFrom : M.State → List ι → List ο
  | _, [] => []
  | s, i :: is => M.obs s i :: traceFrom (M.next s i) is

/-- The observations made while reading the inputs. -/
def trace (is : List ι) : List ο := M.traceFrom M.init is

/-- The same system seen through another observation. -/
def observe {β : Type*} (obs : M.State → ι → β) : DetSystem ι β where
  State := M.State
  init := M.init
  next := M.next
  obs := obs

@[simp] theorem run_observe {β : Type*} (obs : M.State → ι → β) (is : List ι) :
    (M.observe obs).run is = M.run is := rfl

@[simp] theorem run_nil : M.run [] = M.init := rfl

theorem run_append (is js : List ι) : M.run (is ++ js) = js.foldl M.next (M.run is) := by
  rw [run, List.foldl_append]; rfl

@[simp] theorem run_snoc (is : List ι) (i : ι) : M.run (is ++ [i]) = M.next (M.run is) i := by
  rw [run_append]; rfl

theorem traceFrom_append (is js : List ι) :
    ∀ s, M.traceFrom s (is ++ js) = M.traceFrom s is ++ M.traceFrom (is.foldl M.next s) js := by
  induction is with
  | nil => intro s; rfl
  | cons i is ih => intro s; simp only [List.cons_append, traceFrom, ih, List.foldl_cons]

@[simp] theorem trace_nil : M.trace [] = [] := rfl

theorem trace_append (is js : List ι) :
    M.trace (is ++ js) = M.trace is ++ M.traceFrom (M.run is) js :=
  M.traceFrom_append is js M.init

@[simp] theorem trace_snoc (is : List ι) (i : ι) :
    M.trace (is ++ [i]) = M.trace is ++ [M.obs (M.run is) i] := by
  rw [trace_append]; rfl

@[simp] theorem length_trace (is : List ι) : (M.trace is).length = is.length := by
  induction is using List.reverseRecOn with
  | nil => rfl
  | append_singleton is i ih => simp [ih]

/-- The observation of the `k`-th input is made in the state after the inputs before it. -/
theorem trace_getElem? (is : List ι) (k : Nat) :
    (M.trace is)[k]? = is[k]?.map (M.obs (M.run (is.take k))) := by
  induction is using List.reverseRecOn with
  | nil => simp
  | append_singleton is i ih =>
    rw [trace_snoc]
    rcases Nat.lt_trichotomy k is.length with h | h | h
    · rw [List.getElem?_append_left (by simpa using h), List.getElem?_append_left h, ih,
        List.take_append_of_le_length (Nat.le_of_lt h)]
    · subst h
      simp
    · rw [List.getElem?_eq_none (by simp; omega), List.getElem?_eq_none (by simp; omega)]
      rfl

variable {M}

/-- Induction along a run, for a property that may mention the inputs read so far. -/
theorem run_induction {P : List ι → M.State → Prop} (nil : P [] M.init)
    (snoc : ∀ is i, P is (M.run is) → P (is ++ [i]) (M.next (M.run is) i)) (is : List ι) :
    P is (M.run is) := by
  induction is using List.reverseRecOn with
  | nil => exact nil
  | append_singleton is i ih => rw [run_snoc]; exact snoc is i ih

/-- A property that every step preserves holds in every reachable state. -/
theorem invariant {P : M.State → Prop} (init : P M.init) (step : ∀ s i, P s → P (M.next s i))
    (is : List ι) : P (M.run is) :=
  run_induction (P := fun _ s => P s) init (fun _ i h => step _ i h) is

/-- A simulation relates the states of two runs on corresponding inputs. -/
theorem simulation {N : DetSystem κ ο} {f : ι → κ} {R : M.State → N.State → Prop}
    (init : R M.init N.init) (step : ∀ s t i, R s t → R (M.next s i) (N.next t (f i)))
    (is : List ι) : R (M.run is) (N.run (is.map f)) := by
  induction is using List.reverseRecOn with
  | nil => exact init
  | append_singleton is i ih =>
    rw [List.map_append, List.map_singleton, run_snoc, run_snoc]
    exact step _ _ i ih

/-- Two systems related by a simulation make the same observations. -/
theorem trace_eq_of_simulation {N : DetSystem κ ο} {f : ι → κ} {R : M.State → N.State → Prop}
    (init : R M.init N.init) (step : ∀ s t i, R s t → R (M.next s i) (N.next t (f i)))
    (obs : ∀ s t i, R s t → M.obs s i = N.obs t (f i)) (is : List ι) :
    M.trace is = N.trace (is.map f) := by
  induction is using List.reverseRecOn with
  | nil => rfl
  | append_singleton is i ih =>
    rw [List.map_append, List.map_singleton, trace_snoc, trace_snoc, ih,
      obs _ _ i (simulation init step is)]

/-- A simulation of a run whose steps all meet a condition on the state before the step. -/
theorem simulation_of_steps {N : DetSystem κ ο} {f : ι → κ} {R : M.State → N.State → Prop}
    {Q : M.State → ι → Prop} (init : R M.init N.init)
    (step : ∀ s t i, Q s i → R s t → R (M.next s i) (N.next t (f i))) (is : List ι)
    (hsteps : ∀ before i, before ++ [i] <+: is → Q (M.run before) i) :
    R (M.run is) (N.run (is.map f)) := by
  induction is using List.reverseRecOn with
  | nil => exact init
  | append_singleton is i ih =>
    rw [List.map_append, List.map_singleton, run_snoc, run_snoc]
    exact step _ _ i (hsteps is i (List.prefix_refl _))
      (ih fun before j hb => hsteps before j (hb.trans (List.prefix_append is [i])))

/-- The observations of such a run agree when the simulation makes equal observations. -/
theorem trace_eq_of_steps {N : DetSystem κ ο} {f : ι → κ} {R : M.State → N.State → Prop}
    {Q : M.State → ι → Prop} (init : R M.init N.init)
    (step : ∀ s t i, Q s i → R s t → R (M.next s i) (N.next t (f i)))
    (obs : ∀ s t i, Q s i → R s t → M.obs s i = N.obs t (f i)) (is : List ι)
    (hsteps : ∀ before i, before ++ [i] <+: is → Q (M.run before) i) :
    M.trace is = N.trace (is.map f) := by
  induction is using List.reverseRecOn with
  | nil => rfl
  | append_singleton is i ih =>
    have hbefore : ∀ before j, before ++ [j] <+: is → Q (M.run before) j :=
      fun before j hb => hsteps before j (hb.trans (List.prefix_append is [i]))
    rw [List.map_append, List.map_singleton, trace_snoc, trace_snoc, ih hbefore,
      obs _ _ i (hsteps is i (List.prefix_refl _)) (simulation_of_steps init step is hbefore)]

/-! ## Progress -/

/-- A rank that no input raises and that the counted inputs lower, until the goal is reached, bounds the
number of counted inputs that are read before the goal. -/
theorem reaches_of_rank {I G : M.State → Prop} {counted : ι → Bool} (rank : M.State → ℕ)
    (keep : ∀ s i, I s → I (M.next s i))
    (step : ∀ s i, I s → ¬ G s →
      G (M.next s i) ∨ rank (M.next s i) + (counted i).toNat ≤ rank s) (js : List ι) :
    ∀ is, I (M.run is) → rank (M.run is) < js.countP counted →
      ∃ mid, mid <+: js ∧ G (M.run (is ++ mid)) := by
  induction js with
  | nil =>
    intro is _ hlt
    exact absurd hlt (Nat.not_lt_zero _)
  | cons j js ih =>
    intro is hinv hlt
    by_cases hgoal : G (M.run is)
    · exact ⟨[], List.nil_prefix, by rwa [List.append_nil]⟩
    · have hrun : M.run (is ++ [j]) = M.next (M.run is) j := M.run_snoc is j
      rcases step _ j hinv hgoal with hgoal' | hrank
      · refine ⟨[j], List.prefix_append [j] js, ?_⟩
        rwa [hrun]
      · rw [List.countP_cons] at hlt
        have hcounted : (if counted j = true then 1 else 0) = (counted j).toNat := by
          cases counted j <;> rfl
        obtain ⟨mid, hmid, hgoal'⟩ := ih (is ++ [j]) (by rw [hrun]; exact keep _ j hinv)
          (by rw [hrun]; omega)
        refine ⟨j :: mid, List.prefix_cons_inj j |>.mpr hmid, ?_⟩
        rwa [List.append_cons]

/-! ## Linearization -/

/-- The operations that a run completes, with their answers, in the order of completion. -/
def history {κ α : Type*} (M : DetSystem ι (Option (κ × α))) (is : List ι) : List (κ × α) :=
  (M.trace is).filterMap id

theorem history_snoc {κ α : Type*} (M : DetSystem ι (Option (κ × α))) (is : List ι) (i : ι) :
    M.history (is ++ [i]) = M.history is ++ (M.obs (M.run is) i).toList := by
  unfold history
  rw [trace_snoc, List.filterMap_append]
  cases M.obs (M.run is) i <;> rfl

/-- A history that the atomic system `N` can answer in this order. -/
def Legal {κ α : Type*} (N : DetSystem κ α) (events : List (κ × α)) : Prop :=
  N.trace (events.map Prod.fst) = events.map Prod.snd

theorem legal_snoc {κ α : Type*} {N : DetSystem κ α} {events : List (κ × α)} {event : κ × α} :
    N.Legal (events ++ [event]) ↔
      N.Legal events ∧ N.obs (N.run (events.map Prod.fst)) event.1 = event.2 := by
  unfold Legal
  rw [List.map_append, List.map_append, List.map_singleton, List.map_singleton, trace_snoc]
  constructor
  · intro h
    obtain ⟨h, hlast⟩ := List.append_inj' h rfl
    exact ⟨h, List.head_eq_of_cons_eq hlast⟩
  · rintro ⟨h, hlast⟩
    rw [h, hlast]

/-- When every step of `M` either is invisible to `N` or completes one operation of `N` with the answer
that `N` gives it, the operations in the order of their completion are a run of `N`. -/
theorem linearization {κ α : Type*} {M : DetSystem ι (Option (κ × α))} {N : DetSystem κ α}
    {R : M.State → N.State → Prop} (init : R M.init N.init)
    (silent : ∀ s t i, R s t → M.obs s i = none → R (M.next s i) t)
    (atomic : ∀ s t i event, R s t → M.obs s i = some event →
      N.obs t event.1 = event.2 ∧ R (M.next s i) (N.next t event.1)) (is : List ι) :
    N.Legal (M.history is) ∧ R (M.run is) (N.run ((M.history is).map Prod.fst)) := by
  induction is using List.reverseRecOn with
  | nil => exact ⟨rfl, init⟩
  | append_singleton is i ih =>
    obtain ⟨hlegal, hrel⟩ := ih
    rw [history_snoc, run_snoc]
    cases hobs : M.obs (M.run is) i with
    | none =>
      rw [Option.toList_none, List.append_nil]
      exact ⟨hlegal, silent _ _ i hrel hobs⟩
    | some event =>
      obtain ⟨hanswer, hrel⟩ := atomic _ _ i event hrel hobs
      rw [Option.toList_some, List.map_append, List.map_singleton, run_snoc]
      exact ⟨legal_snoc.mpr ⟨hlegal, hanswer⟩, hrel⟩

end DetSystem

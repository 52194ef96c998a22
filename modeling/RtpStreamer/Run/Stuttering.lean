import RtpStreamer.Run.DetSystem

/-!
# Stuttering refinement

A detailed system refines a coarse one when every step of the detailed system is answered by finitely many
inputs of the coarse one, none of them or several, that make the same visible events. Every run of the
detailed system then has the state and the events of a run of the coarse one, whose invariants it inherits.
-/

namespace DetSystem

variable {ι κ : Type*} {ε ε' : Type*}

/-- The visible events of a run, in order. -/
def events (M : DetSystem ι (Option ε)) (is : List ι) : List ε := (M.trace is).filterMap id

theorem events_snoc (M : DetSystem ι (Option ε)) (is : List ι) (i : ι) :
    M.events (is ++ [i]) = M.events is ++ (M.obs (M.run is) i).toList := by
  unfold events
  rw [trace_snoc, List.filterMap_append]
  cases M.obs (M.run is) i <;> rfl

/-- Induction along a run, for a property of the events so far. -/
theorem events_induction {M : DetSystem ι (Option ε)} {P : List ε → M.State → Prop} (nil : P [] M.init)
    (snoc : ∀ es s i, P es s → P (es ++ (M.obs s i).toList) (M.next s i)) (is : List ι) :
    P (M.events is) (M.run is) := by
  refine run_induction (P := fun is s => P (M.events is) s) nil (fun is i h => ?_) is
  rw [events_snoc]
  exact snoc _ _ i h

/-- The events that another view of the system makes visible. -/
theorem events_observe {α : Type*} (M : DetSystem ι (Option ε)) (view : ε → Option α) (is : List ι) :
    (M.observe fun s i => (M.obs s i).bind view).events is = (M.events is).filterMap view := by
  induction is using List.reverseRecOn with
  | nil => rfl
  | append_singleton is i ih =>
    rw [events_snoc, events_snoc, List.filterMap_append, ih, run_observe]
    show _ ++ ((M.obs (M.run is) i).bind view).toList = _
    cases h : M.obs (M.run is) i with
    | none => rfl
    | some e =>
      show _ ++ (view e).toList = _ ++ [e].filterMap view
      cases hview : view e with
      | none => rw [List.filterMap_cons_none hview]; rfl
      | some a => rw [List.filterMap_cons_some hview]; rfl

/-- What a state answers to one detailed step: inputs that lead to a related state, with the events that
the step shows through `view`. -/
def Answers {M : DetSystem ι (Option ε)} {N : DetSystem κ (Option ε')} (view : ε → Option ε')
    (R : M.State → N.State → Prop) (s : M.State) (t : N.State) (i : ι) : Prop :=
  ∃ js, R (M.next s i) (js.foldl N.next t) ∧
    (M.obs s i).toList.filterMap view = (N.traceFrom t js).filterMap id

section Answers

variable {M : DetSystem ι (Option ε)} {N : DetSystem κ (Option ε')} {view : ε → Option ε'}
  {R : M.State → N.State → Prop} {s : M.State} {t : N.State} {i : ι}

/-- A step that the coarse system does not see. -/
theorem answers_stutter (hrel : R (M.next s i) t) (hobs : (M.obs s i).bind view = none) :
    Answers view R s t i := by
  refine ⟨[], hrel, ?_⟩
  show (M.obs s i).toList.filterMap view = []
  cases h : M.obs s i with
  | none => rfl
  | some e =>
    rw [h] at hobs
    have hview : view e = none := hobs
    exact List.filterMap_cons_none hview

/-- A step that the coarse system makes as well. -/
theorem answers_step (j : κ) (hrel : R (M.next s i) (N.next t j))
    (hobs : (M.obs s i).bind view = N.obs t j) : Answers view R s t i := by
  refine ⟨[j], hrel, ?_⟩
  show _ = [N.obs t j].filterMap id
  rw [← hobs]
  cases M.obs s i with
  | none => rfl
  | some e =>
    show [e].filterMap view = [view e].filterMap id
    cases hview : view e with
    | none => rw [List.filterMap_cons_none hview]; rfl
    | some e' => rw [List.filterMap_cons_some hview]; rfl

/-- **Stuttering refinement** along a run, whose steps may be answered for what is known of the run. -/
theorem exists_run_of_answers_along (init : R M.init N.init) (is : List ι)
    (step : ∀ before i t, before ++ [i] <+: is → R (M.run before) t → Answers view R (M.run before) t i) :
    ∃ js, R (M.run is) (N.run js) ∧ (M.events is).filterMap view = N.events js := by
  induction is using List.reverseRecOn with
  | nil => exact ⟨[], init, rfl⟩
  | append_singleton is i ih =>
    obtain ⟨js, hrel, hevents⟩ := ih fun before i t hinit =>
      step before i t (hinit.trans (List.prefix_append _ _))
    obtain ⟨js', hrel', hevents'⟩ := step is i _ (List.prefix_refl _) hrel
    refine ⟨js ++ js', ?_, ?_⟩
    · rw [run_snoc, run_append]
      exact hrel'
    · rw [events_snoc, List.filterMap_append, hevents, hevents']
      unfold events
      rw [trace_append, List.filterMap_append]

/-- **Stuttering refinement.** -/
theorem exists_run_of_answers (init : R M.init N.init)
    (step : ∀ s t i, R s t → Answers view R s t i) (is : List ι) :
    ∃ js, R (M.run is) (N.run js) ∧ (M.events is).filterMap view = N.events js :=
  exists_run_of_answers_along init is fun _ i t _ hrel => step _ t i hrel

end Answers

end DetSystem

import SmartProcurement.Transaction.Session

namespace SmartProcurement.Transaction

/-! # The exceptions of a computation

The exceptions that a computation may end with, wherever it fails.
-/

variable {ε σ α β : Type} {allowed : ε → Prop}

def Refuses (allowed : ε → Prop) (computed : Except ε α) : Prop := ∀ reason, computed = .error reason → allowed reason

/-- From this state the computation ends with an allowed exception, if with any. -/
def Raises (allowed : ε → Prop) (computation : EStateM ε σ α) (before : σ) : Prop :=
  ∀ reason after, computation before = .error reason after → allowed reason

section Refuses

variable {computed : Except ε α}

theorem refuses_ok (value : α) : Refuses allowed (.ok value : Except ε α) := nofun

theorem refuses_error {reason : ε} (isAllowed : allowed reason) : Refuses allowed (.error reason : Except ε α) := by
  rintro _ same
  cases same
  exact isAllowed

theorem Refuses.bind {next : α → Except ε β} (first : Refuses allowed computed)
    (continues : ∀ value, computed = .ok value → Refuses allowed (next value)) : Refuses allowed (computed >>= next) := by
  cases ran : computed with
  | ok value => exact continues value ran
  | error reason => exact refuses_error (first reason ran)

theorem Refuses.map {f : α → β} (refuses : Refuses allowed computed) : Refuses allowed (computed.map f) := by
  cases ran : computed with
  | ok value => exact refuses_ok _
  | error reason => exact refuses_error (refuses reason ran)

theorem refuses_foldlM {step : β → α → Except ε β} {list : List α}
    (steps : ∀ acc, ∀ value ∈ list, Refuses allowed (step acc value)) (init : β) : Refuses allowed (list.foldlM step init) := by
  induction list generalizing init with
  | nil => exact refuses_ok init
  | cons first rest ih =>
      rw [List.foldlM_cons]
      exact (steps init first List.mem_cons_self).bind fun next _ =>
        ih (fun acc value member => steps acc value (List.mem_cons_of_mem _ member)) next

theorem refuses_mapM {f : α → Except ε β} {list : List α} (steps : ∀ value ∈ list, Refuses allowed (f value)) :
    Refuses allowed (list.mapM f) := by
  induction list with
  | nil => exact refuses_ok _
  | cons first rest ih =>
      rw [List.mapM_cons]
      exact (steps first List.mem_cons_self).bind fun _ _ =>
        (ih fun value member => steps value (List.mem_cons_of_mem _ member)).bind fun _ _ => refuses_ok _

theorem exists_mapM_iff {f : α → Except ε β} {list : List α} :
    (∃ results, list.mapM f = .ok results) ↔ ∀ value ∈ list, ∃ result, f value = .ok result := by
  induction list with
  | nil => exact iff_of_true ⟨[], rfl⟩ nofun
  | cons first rest ih =>
      rw [List.mapM_cons, List.forall_mem_cons, ← ih]
      cases f first with
      | error reason => exact iff_of_false nofun fun both => by simp at both
      | ok result => cases rest.mapM f <;> simp [bind, Except.bind, pure, Except.pure]

theorem mapM_congr {f g : α → Except ε β} {list : List α} (same : ∀ value ∈ list, f value = g value) : list.mapM f = list.mapM g := by
  induction list with
  | nil => rfl
  | cons first rest ih =>
      rw [List.mapM_cons, List.mapM_cons, same first List.mem_cons_self,
        ih fun value member => same value (List.mem_cons_of_mem _ member)]

theorem mem_of_mapM {f : α → Except ε β} {list : List α} {results : List β} {value : α} (ran : list.mapM f = .ok results)
    (member : value ∈ list) : ∃ result ∈ results, f value = .ok result := by
  induction list generalizing results with
  | nil => cases member
  | cons first rest ih =>
      rw [List.mapM_cons] at ran
      cases head : f first with
      | error reason => simp [head, bind, Except.bind] at ran
      | ok result =>
          cases tail : rest.mapM f with
          | error reason => simp [head, tail, bind, Except.bind] at ran
          | ok others =>
              simp only [head, tail, bind, Except.bind, pure, Except.pure, Except.ok.injEq] at ran
              subst ran
              rcases List.mem_cons.mp member with rfl | member
              · exact ⟨result, List.mem_cons_self, head⟩
              · obtain ⟨found, listed, same⟩ := ih tail member
                exact ⟨found, List.mem_cons_of_mem _ listed, same⟩

/-- With only one exception to end with, one failure decides. -/
theorem mapM_eq_error {f : α → Except ε β} {list : List α} {value : α} {reason : ε}
    (refuses : ∀ value ∈ list, Refuses (· = reason) (f value)) (member : value ∈ list) (failed : f value = .error reason) :
    list.mapM f = .error reason := by
  cases ran : list.mapM f with
  | error other => rw [refuses_mapM refuses other ran]
  | ok results =>
      obtain ⟨result, _, same⟩ := mem_of_mapM ran member
      cases failed.symm.trans same

end Refuses

section Raises

variable {computation : EStateM ε σ α} {before : σ}

theorem raises_of_ok {value : α} {after : σ} (ran : computation before = .ok value after) :
    Raises allowed computation before := by
  intro reason state raised
  cases ran.symm.trans raised

theorem Raises.mono {weaker : ε → Prop} (raises : Raises allowed computation before)
    (weakens : ∀ reason, allowed reason → weaker reason) :
    Raises weaker computation before :=
  fun reason after raised => weakens reason (raises reason after raised)

theorem raises_pure (value : α) (before : σ) : Raises allowed (pure value : EStateM ε σ α) before := raises_of_ok rfl

theorem raises_read (query : σ → α) (before : σ) : Raises allowed (read query : EStateM ε σ α) before := raises_of_ok rfl

theorem raises_write (change : σ → σ) (before : σ) : Raises allowed (write change : EStateM ε σ PUnit) before :=
  raises_of_ok rfl

theorem raises_lift {computed : Except ε α} (refuses : Refuses allowed computed) (before : σ) :
    Raises allowed (lift computed : EStateM ε σ α) before := by
  intro reason after raised
  exact refuses reason (lift_eq_error.mp raised).1

theorem Raises.bind {next : α → EStateM ε σ β} (first : Raises allowed computation before)
    (continues : ∀ value after, computation before = .ok value after → Raises allowed (next value) after) :
    Raises allowed (computation >>= next) before := by
  intro reason after raised
  rcases bind_eq_error.mp raised with raised | ⟨value, middle, ran, raised⟩
  · exact first reason after raised
  · exact continues value middle ran reason after raised

theorem raises_foldlM {step : β → α → EStateM ε σ β} {list : List α} {init : β}
    (steps : ∀ value acc reached, Reaches step list init before value acc reached → Raises allowed (step acc value) reached) :
    Raises allowed (list.foldlM step init) before := by
  induction list generalizing init before with
  | nil => exact raises_pure init before
  | cons first rest ih =>
      rw [List.foldlM_cons]
      refine (steps first init before (reaches_cons.mpr (.inl ⟨rfl, rfl, rfl⟩))).bind fun next middle ran => ?_
      exact ih fun value acc reached reaches =>
        steps value acc reached (reaches_cons.mpr (.inr ⟨next, middle, ran, reaches⟩))

end Raises

end SmartProcurement.Transaction
